/-!
# Filter operators

The nine comparisons a filter may ask for, each with its wire name. Six compare
in the order of values and three compare texts.
-/

namespace EntityQuery

inductive Operator
  | equal
  | notEqual
  | greater
  | greaterOrEqual
  | less
  | lessOrEqual
  /-- Containment anywhere. -/
  | contains
  | startsWith
  | endsWith
  deriving DecidableEq, Repr

namespace Operator

def all : List Operator :=
  [equal, notEqual, greater, greaterOrEqual, less, lessOrEqual, contains, startsWith, endsWith]

def name : Operator → String
  | equal => "EQ"
  | notEqual => "NE"
  | greater => "GT"
  | greaterOrEqual => "GET"
  | less => "LT"
  | lessOrEqual => "LET"
  | contains => "LIKE"
  | startsWith => "STARTS_WITH"
  | endsWith => "ENDS_WITH"

def ofName? (s : String) : Option Operator :=
  all.find? fun op => op.name == s

/-- The wording for a name that no operator has. -/
def unknownMessage (s : String) : String :=
  "Unknown operator: " ++ s

def isOrdering : Operator → Bool
  | greater | greaterOrEqual | less | lessOrEqual => true
  | _ => false

def isTextual : Operator → Bool
  | contains | startsWith | endsWith => true
  | _ => false

theorem ofName?_name (op : Operator) : ofName? op.name = some op := by
  cases op <;> decide

end Operator

end EntityQuery
