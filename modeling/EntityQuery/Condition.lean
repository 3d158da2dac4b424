import EntityQuery.Coercion
import EntityQuery.Descriptor
/-!
# Conditions

A filter is what a caller asks for: a field name, a raw value and an operator. A
condition is the same after its field has been found, its value read and its
operator accepted. Filters become conditions together: either all of them do, or
every faulty filter is reported once, in the order of the filters.
-/

namespace EntityQuery

/-- One match condition as a caller writes it. -/
structure Filter where
  field : String
  value : String
  operator : Operator
  deriving DecidableEq, Repr

/-- A condition whose value has been read as its field's type. -/
structure Condition where
  field : String
  type : FieldType
  operator : Operator
  value : FieldValue
  deriving DecidableEq

def Operator.validate (field : String) (op : Operator) (type : FieldType) :
    Except FilterError Unit :=
  if op.supports type then .ok () else .error (.unsupportedOperator field op type.name)

/-- Field names have from 1 to 255 characters. -/
def Filter.hasFieldLength (f : Filter) : Bool :=
  1 ≤ f.field.length && f.field.length ≤ 255

namespace Condition

/-- The condition of a filter: the field is looked up, the value read, the operator checked. -/
def ofFilter (d : Descriptor) (f : Filter) : Except FilterError Condition :=
  if !f.hasFieldLength then .error (.unknownField d.entity f.field)
  else do
    let type ← d.resolve f.field
    let value ← FieldValue.coerce f.field f.value type
    f.operator.validate f.field type
    return ⟨f.field, type, f.operator, value⟩

def error? : Except FilterError α → Option FilterError
  | .ok _ => none
  | .error e => some e

/-- The conditions of all filters, or the errors of all faulty ones. -/
def ofFilters (d : Descriptor) (filters : List Filter) :
    Except ValidationError (List Condition) :=
  let results := filters.map (ofFilter d)
  let errors := results.filterMap error?
  if errors.isEmpty then .ok (results.filterMap Except.toOption) else .error (.fields errors)

/-- Accepts a condition whose field the descriptor declares with the condition's own type. -/
def check (d : Descriptor) (c : Condition) : Except FilterError Unit := do
  let type ← d.resolve c.field
  if type ≠ c.type || !type.accepts c.value then .error (.unknownField d.entity c.field)
  else c.operator.validate c.field type

end Condition

end EntityQuery
