import EntityQuery.Assoc
import EntityQuery.Bson
import EntityQuery.Number.Decimal
import EntityQuery.Text.Base64
import EntityQuery.Time.Reading
/-!
# Tagged values

JSON has no form for most kinds of BSON values. Such a value is written as an object whose
one member has the tag of the kind for its name, and code with a scope as an object with
two members. A document of exactly that shape stands for the value; every other document
stands for itself, also one whose tag is followed by something that the kind does not have.
-/

namespace EntityQuery.Bson

def fromText (read : List Char → Option Bson) : Bson → Option Bson
  | string s => read s.toList
  | _ => none

/-- A whole number of 32 bits in decimal digits. -/
def readInt32? (cs : List Char) : Option Bson :=
  match Integer.read cs with
  | .ok n =>
    if -0x80000000 ≤ n.toInt ∧ n.toInt ≤ 0x7FFFFFFF then some (int32 n.toInt32) else none
  | .error _ => none

/-- A whole number of 64 bits in decimal digits. -/
def readInt64? (cs : List Char) : Option Bson :=
  match Integer.read cs with
  | .ok n => some (int64 n)
  | .error _ => none

/-- Sixteen bytes of no special type, the last one most significant. -/
def decimalOfBytes? : Bson → Option Bson
  | binary subtype bytes =>
    if subtype = 0 ∧ bytes.length = 16 then
      some (decimal (.ofBits (bytes.foldr (fun byte n => 256 * n + byte.toNat) 0)))
    else none
  | _ => none

/-- Bytes in base 64 with two hexadecimal digits for their type, or bytes with a number for it. -/
def binaryOf? : Bson → Option Bson
  | document members =>
    match Assoc.lookup "base64" members, Assoc.lookup "subType" members with
    | some (string text), some (string subtype) => do
      let bytes ← Text.Base64.decode? text.toList
      if subtype.length = 2 then
        let n ← Text.natOfHex? subtype.toList
        some (binary (UInt8.ofNat n) bytes)
      else none
    | some (string _), _ => none
    | _, some (int32 n) =>
      match Assoc.lookup "bytes" members with
      | some (binary 0 bytes) =>
        if 0 ≤ n.toInt ∧ n.toInt < 256 then some (binary (UInt8.ofNat n.toInt.toNat) bytes)
        else none
      | _ => none
    | _, _ => none
  | _ => none

/-- Whether a number is one of 32 bits without a sign. -/
def isWord (n : Int64) : Bool :=
  0 ≤ n.toInt && n.toInt < 0x100000000

/-- Seconds and increment, both in one width. -/
def timestampOf? : Bson → Option Bson
  | document members =>
    match Assoc.lookup "t" members, Assoc.lookup "i" members with
    | some (int32 t), some (int32 i) => some (timestamp t.toUInt32 i.toUInt32)
    | some (int64 t), some (int64 i) =>
      if isWord t && isWord i then
        some (timestamp (UInt32.ofNat t.toInt.toNat) (UInt32.ofNat i.toInt.toNat))
      else none
    | _, _ => none
  | _ => none

/-- A pattern and its options, which are put in order. -/
def regexOf? : Bson → Option Bson
  | document members =>
    match Assoc.lookup "pattern" members, Assoc.lookup "options" members with
    | some (string pattern), some (string options) =>
      some (regex pattern (String.ofList (options.toList.mergeSort fun a b => a ≤ b)))
    | _, _ => none
  | _ => none

/-- The name of a collection and an identifier. -/
def pointerOf? : Bson → Option Bson
  | document members =>
    match Assoc.lookup "$ref" members, Assoc.lookup "$id" members with
    | some (string collection), some (objectId id) => some (pointer collection id)
    | _, _ => none
  | _ => none

/-- Milliseconds, or the text of an instant, of which less than a millisecond is dropped. -/
def instantOf? : Bson → Option Bson
  | int64 n => some (instant n)
  | string s =>
    (Instant.readTagged? s.toList).map fun t =>
      instant (Int64.ofInt (Int.tdiv t.epochNanos 1000000))
  | _ => none

/-- The number one marks a value that has no content. -/
def markerOf? (marked : Bson) : Bson → Option Bson
  | int32 n => if n = 1 then some marked else none
  | int64 n => if n = 1 then some marked else none
  | _ => none

/-- The tags and what they make of the value behind them. -/
def tags : List (String × (Bson → Option Bson)) :=
  [("$oid", fromText fun cs => (ObjectId.read? cs).map objectId),
   ("$symbol", fromText fun cs => some (symbol (String.ofList cs))),
   ("$numberInt", fromText readInt32?),
   ("$numberLong", fromText readInt64?),
   ("$numberDouble", fromText fun cs => (Binary64.read? cs).map double),
   ("$numberDecimal", fromText fun cs => (Decimal128.read? cs).map decimal),
   ("$numberDecimalBytes", decimalOfBytes?),
   ("$binary", binaryOf?),
   ("$code", fromText fun cs => some (code (String.ofList cs))),
   ("$timestamp", timestampOf?),
   ("$regularExpression", regexOf?),
   ("$dbPointer", pointerOf?),
   ("$date", instantOf?),
   ("$minKey", markerOf? least),
   ("$maxKey", markerOf? greatest),
   ("$undefined", fun | boolean true => some undefined | _ => none)]

def ofTagged? : Document → Option Bson
  | [(tag, value)] => (Assoc.lookup tag tags).bind fun read => read value
  | [first, second] =>
    match Assoc.lookup "$code" [first, second], Assoc.lookup "$scope" [first, second] with
    | some (string text), some (document scope) => some (scopedCode text scope)
    | _, _ => none
  | _ => none

def ofDocument (members : Document) : Bson :=
  (ofTagged? members).getD (document members)

/-- A document with three members or more stands for itself. -/
theorem ofDocument_of_two_lt {members : Document} (h : 2 < members.length) :
    ofDocument members = document members := by
  match members, h with
  | _ :: _ :: _ :: _, _ => rfl

end EntityQuery.Bson
