import EntityQuery.Condition
import EntityQuery.Text.Escape
/-!
# Specifications

The form of a query that relational stores render: comparisons of columns with
bound values, joined by AND. The textual operators become `LIKE` with a pattern
in which the wildcards of the searched text are escaped.
-/

namespace EntityQuery

/-- A comparison of SQL. -/
inductive SqlOperator
  | equal
  | notEqual
  | greater
  | greaterOrEqual
  | less
  | lessOrEqual
  | like
  deriving DecidableEq, Repr

def SqlOperator.text : SqlOperator → String
  | equal => "="
  | notEqual => "<>"
  | greater => ">"
  | greaterOrEqual => ">="
  | less => "<"
  | lessOrEqual => "<="
  | like => "LIKE"

/-- A column compared with a bound value, which for `LIKE` is a pattern. -/
structure Comparison where
  field : String
  type : FieldType
  operator : SqlOperator
  value : FieldValue
  deriving DecidableEq

/-- The wildcards of `LIKE` and the escape character itself. -/
def isLikeSpecial (c : Char) : Bool :=
  c = '\\' || c = '%' || c = '_'

/-- A text as a `LIKE` pattern that matches it alone. -/
def escapeLike (s : String) : String :=
  String.ofList (Text.escapeWith '\\' isLikeSpecial s.toList)

namespace Comparison

def ofCondition (c : Condition) : Comparison :=
  let literal := escapeLike (c.value.text?.getD "")
  let (operator, value) : SqlOperator × FieldValue := match c.operator with
    | .equal => (.equal, c.value)
    | .notEqual => (.notEqual, c.value)
    | .greater => (.greater, c.value)
    | .greaterOrEqual => (.greaterOrEqual, c.value)
    | .less => (.less, c.value)
    | .lessOrEqual => (.lessOrEqual, c.value)
    | .contains => (.like, .text ("%" ++ literal ++ "%"))
    | .startsWith => (.like, .text (literal ++ "%"))
    | .endsWith => (.like, .text ("%" ++ literal))
  ⟨c.field, c.type, operator, value⟩

end Comparison

/-- Comparisons joined by AND. -/
inductive Specification
  | compare (comparison : Comparison)
  | and (left right : Specification)
  deriving DecidableEq

namespace Specification

def comparisons : Specification → List Comparison
  | compare c => [c]
  | and left right => left.comparisons ++ right.comparisons

/-- Adds a comparison on the right. -/
def extend : Option Specification → Comparison → Specification
  | none, c => compare c
  | some spec, c => and spec (compare c)

/-- The conjunction of checked conditions; no condition gives no specification. -/
def build (d : Descriptor) (conditions : List Condition) :
    Except FilterError (Option Specification) :=
  conditions.foldlM (fun spec c => do
    c.check d
    return some (extend spec (.ofCondition c))) none

end Specification

end EntityQuery
