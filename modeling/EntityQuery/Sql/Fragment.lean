import EntityQuery.Specification
/-!
# SQL fragments

The text of a specification with placeholders, and the values to bind to them in
the order of the placeholders. How a field is spelled as a column is a parameter,
so the same specification works over plain columns and over documents. No value
is ever part of the text.
-/

namespace EntityQuery.Sql

/-- How a database spells the place of a bound value. -/
inductive Placeholder
  /-- `$1`, `$2`, … -/
  | dollar
  /-- `?` -/
  | question
  deriving DecidableEq, Repr

def Placeholder.text : Placeholder → Nat → String
  | dollar, n => "$" ++ String.ofList (Text.natDigits n)
  | question, _ => "?"

/-- A boolean expression with the values of its placeholders. -/
structure Fragment where
  sql : String
  params : List FieldValue
  deriving DecidableEq

def quoteIdentifier (name : String) : String :=
  String.ofList ('"' :: Text.double '"' name.toList ++ ['"'])

def quoteLiteral (s : String) : String :=
  String.ofList ('\'' :: Text.double '\'' s.toList ++ ['\''])

abbrev ColumnStyle := String → FieldType → String

/-- Columns named after their fields. -/
def plainColumn : ColumnStyle :=
  fun field _ => quoteIdentifier field

/-- One comparison: column, operator and placeholder, and the escape character of `LIKE`. -/
def clause (placeholder : Placeholder) (column : ColumnStyle) (n : Nat) (c : Comparison) : String :=
  column c.field c.type ++ " " ++ c.operator.text ++ " " ++ placeholder.text n ++
    if c.operator = .like then " ESCAPE '\\'" else ""

/-- The number of the placeholder at an offset from the first one. Numbers are words of 64 bits,
and behind the greatest word they go on from zero. As an offset is a position in a vector, it
is below 2^63, and numbers that begin below 2^63 never get that far. -/
def placeholderNumber (first : UInt64) (offset : Nat) : Nat :=
  if first < 0x8000000000000000 then first.toNat + offset
  else (first.toNat + offset) % UInt64.size

def clauses (placeholder : Placeholder) (column : ColumnStyle) (first : UInt64) :
    Nat → List Comparison → List String
  | _, [] => []
  | offset, c :: rest =>
    clause placeholder column (placeholderNumber first offset) c ::
      clauses placeholder column first (offset + 1) rest

/-- A specification as a boolean expression, with placeholders numbered from `first`. -/
def render (placeholder : Placeholder) (first : UInt64) (column : ColumnStyle)
    (spec : Specification) : Fragment :=
  { sql := " AND ".intercalate (clauses placeholder column first 0 spec.comparisons)
    params := spec.comparisons.map Comparison.value }

/-- A specification over columns named after the fields. -/
def renderPlain (placeholder : Placeholder) (spec : Specification) : Fragment :=
  render placeholder 1 plainColumn spec

end EntityQuery.Sql
