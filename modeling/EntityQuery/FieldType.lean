import EntityQuery.Operator
/-!
# Field types

What kind of values a field has, and which operators apply to it. Equality
applies to every type, order to numbers and points in time, and the textual
operators to text alone.
-/

namespace EntityQuery

inductive FieldType
  | text
  | integer
  | decimal
  | boolean
  /-- One of the listed constants. -/
  | enum (constants : List String)
  | date
  | dateTime
  deriving DecidableEq, Repr

namespace FieldType

/-- The name used in messages. -/
def name : FieldType → String
  | text => "Text"
  | integer => "Integer"
  | decimal => "Decimal"
  | boolean => "Boolean"
  | enum _ => "Enum"
  | date => "Date"
  | dateTime => "DateTime"

def isOrdered : FieldType → Bool
  | integer | decimal | date | dateTime => true
  | _ => false

/-- Whether values of the type can be searched for parts. -/
def isTextual : FieldType → Bool
  | text => true
  | _ => false

end FieldType

def Operator.supports (op : Operator) (type : FieldType) : Bool :=
  if op.isOrdering then type.isOrdered
  else if op.isTextual then type.isTextual
  else true

end EntityQuery
