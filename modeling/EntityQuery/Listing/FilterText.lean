import EntityQuery.Condition
import EntityQuery.Json.Reading
import EntityQuery.Json.Writing
/-!
# Filters as JSON

A list of filters is a JSON array. Each filter is an object with the members
`field`, `value` and `operator`, or an array of the three. Other members are
passed over, whatever their values are; a member that is used may stand only
once.
-/

namespace EntityQuery.Filter

/-- A word of a fixed vocabulary: a string, or an object with the word as its only member. -/
def wordOfTree? : Json.Tree → Option String
  | .str text => text
  | .obj [(name, .null)] => name
  | _ => none

def stringOfTree? : Json.Tree → Option String
  | .str text => text
  | _ => none

/-- The value of a member that stands exactly once. -/
def onlyMember? (name : String) (members : List (String × Json.Tree)) : Option Json.Tree :=
  match members.filter fun m => m.1 == name with
  | [(_, value)] => some value
  | _ => none

def ofParts? (field value operator : Json.Tree) : Option Filter := do
  let field ← stringOfTree? field
  let value ← stringOfTree? value
  let operator ← (wordOfTree? operator).bind Operator.ofName?
  some ⟨field, value, operator⟩

def namedMembers? (members : List (Option String × Json.Tree)) :
    Option (List (String × Json.Tree)) :=
  members.mapM fun (name, value) => name.map fun n => (n, value)

/-- A filter as an object or as an array. -/
def ofTree? : Json.Tree → Option Filter
  | .obj members => do
    let members ← namedMembers? members
    let field ← onlyMember? "field" members
    let value ← onlyMember? "value" members
    let operator ← onlyMember? "operator" members
    ofParts? field value operator
  | .arr [field, value, operator] => ofParts? field value operator
  | _ => none

def readList? (text : List Char) : Option (List Filter) := do
  match ← Json.Tree.read? text with
  | .arr items => items.mapM ofTree?
  | _ => none

def toJson (f : Filter) : Json :=
  .obj [("field", .str f.field), ("value", .str f.value), ("operator", .str f.operator.name)]

def writeList (filters : List Filter) : String :=
  (Json.arr (filters.map toJson)).toText

end EntityQuery.Filter
