import EntityQuery.Error
import EntityQuery.FieldValue
import EntityQuery.Number.Decimal
import EntityQuery.Number.Integer
import EntityQuery.Time.Reading
/-!
# Coercion

Reading the raw text of a filter as a value of its field's type. Text is taken as
it is; every other type accepts a fixed grammar and nothing around it.
-/

namespace EntityQuery

/-- The accepted form of a type's texts, as told to the caller. -/
def FieldType.expected : FieldType → String
  | text => "any text"
  | integer => "an integer"
  | decimal => "a decimal number"
  | boolean => "true or false"
  | enum constants => "one of [" ++ ", ".intercalate constants ++ "]"
  | date => "a date in YYYY-MM-DD form"
  | dateTime => "an ISO-8601 date-time such as 2010-11-23T10:15:30Z"

namespace FieldValue

/-- The words `true` and `false` in ASCII letters of either case. -/
def readBoolean? (raw : List Char) : Option Bool :=
  let lower := raw.map Char.toLower
  if lower = "true".toList then some true
  else if lower = "false".toList then some false
  else none

/-- A decimal text whose nearest double is finite. -/
def readDecimal? (raw : List Char) : Option Binary64 :=
  ((Decimal.read? raw).map Decimal.toBinary64).filter Binary64.isFinite

/-- The value of a raw text, if the text has the form of the type. -/
def ofRaw? (type : FieldType) (raw : String) : Option FieldValue :=
  match type with
  | .text => some (text raw)
  | .integer => (Integer.read raw.toList).toOption.map integer
  | .decimal => (readDecimal? raw.toList).map decimal
  | .boolean => (readBoolean? raw.toList).map boolean
  | .enum constants => if raw ∈ constants then some (enum raw) else none
  | .date => (Date.readFixed? raw.toList).map date
  | .dateTime => (Instant.readFilter? raw.toList).map dateTime

/-- The value of a raw text, or the error that reports the field. -/
def coerce (field raw : String) (type : FieldType) : Except FilterError FieldValue :=
  match ofRaw? type raw with
  | some value => .ok value
  | none => .error (.invalidValue field raw type.expected)

end FieldValue

end EntityQuery
