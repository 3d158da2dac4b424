import EntityQuery.Bson.Tagged
import EntityQuery.Json.Basic
import EntityQuery.Time.Writing
/-!
# BSON and JSON

JSON is read as BSON from the inside out, so a tagged object may hold others. Whole numbers
are read with 64 bits. Every BSON value has a JSON form: that of its own kind if JSON has the
kind, and a tagged object if not.
-/

namespace EntityQuery.Bson

mutual

/-- JSON as BSON; a number beyond the signed 64-bit ones has no form. -/
def ofJson? : Json → Option Bson
  | .null => some null
  | .bool b => some (boolean b)
  | .int n => (Integer.ofInt? n).map int64
  | .float x => some (double x)
  | .str s => some (string s)
  | .arr items => (ofItems? items).map array
  | .obj members => (ofMembers? members).map ofDocument

def ofItems? : List Json → Option (List Bson)
  | [] => some []
  | v :: rest => do
    let b ← ofJson? v
    let bs ← ofItems? rest
    some (b :: bs)

def ofMembers? : List (String × Json) → Option Document
  | [] => some []
  | (name, v) :: rest => do
    let b ← ofJson? v
    let bs ← ofMembers? rest
    some ((name, b) :: bs)

end

def tagged (tag : String) (value : Json) : Json :=
  .obj [(tag, value)]

/-- An object whose one member is a text. -/
def taggedText (tag : String) (text : List Char) : Json :=
  tagged tag (.str (String.ofList text))

/-- A double as JSON; what is not finite has a sign and a word. -/
def doubleToJson (x : Binary64) : Json :=
  if x.isFinite then .float x
  else
    let word := if x.isNaN then "NaN" else "Infinity"
    tagged "$numberDouble" (.str (if x.negative then "-" ++ word else word))

def objectIdToJson (id : ObjectId) : Json :=
  taggedText "$oid" id.write

/-- Milliseconds as JSON: the text of an instant from 1970 to 9999, or a number. -/
def instantToJson (millis : Int64) : Json :=
  let number := tagged "$date" (taggedText "$numberLong" (Integer.write millis.toInt))
  match Instant.ofEpochNanos? (millis.toInt * 1000000) with
  | none => number
  | some t =>
    if 0 ≤ millis.toInt ∧ t.date.year ≤ 9999 then taggedText "$date" (t.write .trimmed)
    else number

def binaryToJson (subtype : UInt8) (bytes : List UInt8) : Json :=
  tagged "$binary" (.obj
    [("base64", .str (String.ofList (Text.Base64.encode bytes))),
     ("subType", .str (String.ofList (Text.fixedHex 2 subtype.toNat)))])

mutual

/-- BSON as JSON, whole numbers and finite doubles as plain numbers. -/
def toJson : Bson → Json
  | null => .null
  | boolean b => .bool b
  | int32 n => .int n.toInt
  | int64 n => .int n.toInt
  | double x => doubleToJson x
  | decimal x => taggedText "$numberDecimal" x.write
  | string s => .str s
  | symbol s => tagged "$symbol" (.str s)
  | objectId id => objectIdToJson id
  | instant millis => instantToJson millis
  | timestamp seconds increment =>
    tagged "$timestamp" (.obj [("t", .int seconds.toNat), ("i", .int increment.toNat)])
  | binary subtype bytes => binaryToJson subtype bytes
  | regex pattern options =>
    tagged "$regularExpression" (.obj [("pattern", .str pattern), ("options", .str options)])
  | code text => tagged "$code" (.str text)
  | scopedCode text scope => .obj [("$code", .str text), ("$scope", .obj (membersToJson scope))]
  | pointer collection id =>
    tagged "$dbPointer" (.obj [("$ref", .str collection), ("$id", objectIdToJson id)])
  | undefined => tagged "$undefined" (.bool true)
  | least => tagged "$minKey" (.int 1)
  | greatest => tagged "$maxKey" (.int 1)
  | array items => .arr (itemsToJson items)
  | document members => .obj (membersToJson members)

def itemsToJson : List Bson → List Json
  | [] => []
  | b :: rest => toJson b :: itemsToJson rest

def membersToJson : Document → List (String × Json)
  | [] => []
  | (name, b) :: rest => (name, toJson b) :: membersToJson rest

end

end EntityQuery.Bson
