import EntityQuery.Number.Binary64
import EntityQuery.Number.Decimal128
import EntityQuery.Text.Digits
/-!
# BSON values

The values of a document store. Documents keep the order of their members. Beside the
kinds that JSON has there are whole numbers of two widths, decimals, instants, bytes,
identifiers, code and several markers.
-/

namespace EntityQuery

/-- An identifier of twelve bytes, as a number. -/
abbrev ObjectId := Fin 0x1000000000000000000000000

namespace ObjectId

/-- Exactly 24 hexadecimal digits. -/
def read? (cs : List Char) : Option ObjectId :=
  if cs.length = 24 then (Text.natOfHex? cs).map (Fin.ofNat _) else none

/-- The 24 lower-case digits. -/
def write (id : ObjectId) : List Char :=
  Text.fixedHex 24 id

end ObjectId

inductive Bson
  | null
  | boolean (value : Bool)
  | int32 (value : Int32)
  | int64 (value : Int64)
  | double (value : Binary64)
  | decimal (value : Decimal128)
  | string (value : String)
  /-- A string that names something. -/
  | symbol (value : String)
  | objectId (value : ObjectId)
  /-- Milliseconds from 1970-01-01. -/
  | instant (millis : Int64)
  /-- A second of the database's clock and the number of the event within it. -/
  | timestamp (seconds increment : UInt32)
  | binary (subtype : UInt8) (bytes : List UInt8)
  /-- A regular expression with its options in order. -/
  | regex (pattern options : String)
  | code (text : String)
  /-- Code and the values of its free names. -/
  | scopedCode (text : String) (scope : List (String × Bson))
  /-- A document of another collection. -/
  | pointer (collection : String) (id : ObjectId)
  | undefined
  /-- What is below every other value. -/
  | least
  /-- What is above every other value. -/
  | greatest
  | array (items : List Bson)
  | document (members : List (String × Bson))
  deriving Inhabited

abbrev Document := List (String × Bson)

end EntityQuery
