import EntityQuery.Condition
/-!
# Predicates

The form of a query that is evaluated against the values of an entity and that
document stores take over. A field that is missing or null satisfies no
comparison, not even an unequal one.

Conjunctions built by `and` are flat, with `always` as their unit.
-/

namespace EntityQuery

inductive Predicate
  /-- Holds of everything. -/
  | always
  | compare (field : String) (operator : Operator) (value : FieldValue)
  /-- Holds when every member does. -/
  | all (members : List Predicate)
  deriving Inhabited

/-- Whether a value that is not null stands in the operator's relation to an expected one. -/
def Operator.holds (op : Operator) (actual expected : FieldValue) : Bool :=
  if op.isTextual then
    match actual.text?, expected.text? with
    | some text, some part =>
      match op with
      | contains => Text.occursIn part.toList text.toList
      | startsWith => Text.startsWith part.toList text.toList
      | endsWith => Text.endsWith part.toList text.toList
      | _ => false
    | _, _ => false
  else
    match actual.compare? expected with
    | none => false
    | some order =>
      match op with
      | equal => order == .eq
      | notEqual => order != .eq
      | greater => order == .gt
      | greaterOrEqual => order != .lt
      | less => order == .lt
      | lessOrEqual => order != .gt
      | _ => false

namespace Predicate

mutual

/-- Whether the predicate holds of everything by its shape. -/
def isTautology : Predicate → Bool
  | always => true
  | compare .. => false
  | all members => areTautologies members

def areTautologies : List Predicate → Bool
  | [] => true
  | p :: rest => isTautology p && areTautologies rest

end

def and : Predicate → Predicate → Predicate
  | always, q => q
  | p, always => p
  | all ps, all qs => all (ps ++ qs)
  | all ps, q => all (ps ++ [q])
  | p, all qs => all (p :: qs)
  | p, q => all [p, q]

mutual

/-- Whether the predicate holds of the values that `lookup` gives. -/
def eval (lookup : String → Option FieldValue) : Predicate → Bool
  | always => true
  | compare field op expected =>
    match lookup field with
    | some actual => !actual.isNull && op.holds actual expected
    | none => false
  | all members => evalAll lookup members

def evalAll (lookup : String → Option FieldValue) : List Predicate → Bool
  | [] => true
  | p :: rest => eval lookup p && evalAll lookup rest

end

def ofCondition (c : Condition) : Predicate :=
  compare c.field c.operator c.value

/-- The conjunction of checked conditions. -/
def build (d : Descriptor) (conditions : List Condition) : Except FilterError Predicate :=
  conditions.foldlM (fun p c => do
    c.check d
    return p.and (ofCondition c)) always

/-- The tagged JSON of a predicate. A conjunction has none. -/
def toJson? : Predicate → Option Json
  | always => some (.obj [("type", .str "true")])
  | compare field op value =>
    some (.obj [("type", .str "compare"), ("field", .str field), ("operator", .str op.name),
      ("value", value.toJson)])
  | all _ => none

end Predicate

end EntityQuery
