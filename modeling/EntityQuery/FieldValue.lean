import EntityQuery.FieldType
import EntityQuery.Json.Basic
import EntityQuery.Number.Integer
import EntityQuery.Number.Shortest
import EntityQuery.Text.Substring
import EntityQuery.Time.Writing
/-!
# Field values

A value that an entity holds in a field or that a filter compares a field with.
Values of one form are ordered: texts and constants by their characters, which is
the order of their bytes, numbers by value, and dates and instants by time. An
integer is compared with a double by the double nearest to it.
-/

namespace EntityQuery

inductive FieldValue
  | text (s : String)
  | integer (n : Int64)
  | decimal (x : Binary64)
  | boolean (b : Bool)
  | enum (constant : String)
  | date (d : Date)
  | dateTime (t : Instant)
  | null
  deriving DecidableEq

namespace FieldValue

/-- The text of a text or of a constant. -/
def text? : FieldValue → Option String
  | text s | enum s => some s
  | _ => none

def integer? : FieldValue → Option Int64
  | integer n => some n
  | _ => none

def isNull : FieldValue → Bool
  | null => true
  | _ => false

/-- The double nearest to an integer. -/
def toBinary64 (n : Int64) : Binary64 :=
  .ofInt n.toInt

/-- The order of two values of one form. Null and values of different forms have none. -/
def compare? : FieldValue → FieldValue → Option Ordering
  | text a, text b => some (compare a b)
  | enum a, enum b => some (compare a b)
  | integer a, integer b => some (compare a b)
  | decimal a, decimal b => a.compare? b
  | integer a, decimal b => (toBinary64 a).compare? b
  | decimal a, integer b => a.compare? (toBinary64 b)
  | boolean a, boolean b => some (compare a b)
  | date a, date b => some (compare a b)
  | dateTime a, dateTime b => some (compare a b)
  | _, _ => none

/-- Equality of form and value, doubles being equal as numbers. -/
def same : FieldValue → FieldValue → Bool
  | decimal a, decimal b => a.numEq b
  | a, b => a = b

/-- The text shown to people and accepted back by filters. -/
def write : FieldValue → List Char
  | text s | enum s => s.toList
  | integer n => Integer.write n.toInt
  | decimal x => x.write .plain
  | boolean b => (if b then "true" else "false").toList
  | date d => d.write
  | dateTime t => t.write .none
  | null => "null".toList

def display (v : FieldValue) : String :=
  String.ofList v.write

/-- The value as JSON, with nothing to tell its form. -/
def toJson : FieldValue → Json
  | text s | enum s => .str s
  | integer n => .int n.toInt
  | decimal x => .ofBinary64 x
  | boolean b => .bool b
  | date d => .str (String.ofList d.write)
  | dateTime t => .str (String.ofList (t.write .shortest))
  | null => .null

end FieldValue

/-- Whether a value has the form of a type. Null has the form of every type. -/
def FieldType.accepts : FieldType → FieldValue → Bool
  | _, .null => true
  | text, .text _ => true
  | integer, .integer _ => true
  | decimal, .decimal _ => true
  | boolean, .boolean _ => true
  | enum _, .enum _ => true
  | date, .date _ => true
  | dateTime, .dateTime _ => true
  | _, _ => false

end EntityQuery
