import EntityQuery.Assoc
import EntityQuery.Number.Rounding
/-!
# JSON values

Values with whole numbers apart from doubles. The members of an object keep
their order and have different names.
-/

namespace EntityQuery

inductive Json
  | null
  | bool (value : Bool)
  | int (value : Int)
  | float (value : Binary64)
  | str (value : String)
  | arr (items : List Json)
  | obj (members : List (String × Json))
  deriving Inhabited

namespace Json

def member? (name : String) : Json → Option Json
  | obj members => Assoc.lookup name members
  | _ => none

def bool? : Json → Option Bool
  | bool value => some value
  | _ => none

def int? : Json → Option Int
  | int value => some value
  | _ => none

def str? : Json → Option String
  | str value => some value
  | _ => none

def arr? : Json → Option (List Json)
  | arr items => some items
  | _ => none

def obj? : Json → Option (List (String × Json))
  | obj members => some members
  | _ => none

/-- Any number, a whole one as the nearest double. -/
def number? : Json → Option Binary64
  | int value => some (.ofInt value)
  | float value => some value
  | _ => none

/-- A word of a fixed vocabulary: a string, or an object with the word as its only member. -/
def word? : Json → Option String
  | str word => some word
  | obj [(word, null)] => some word
  | _ => none

/-- A double as JSON; what has no JSON number is `null`. -/
def ofBinary64 (x : Binary64) : Json :=
  if x.isFinite then float x else null

def ofString? : Option String → Json
  | some s => str s
  | none => null

end Json

end EntityQuery
