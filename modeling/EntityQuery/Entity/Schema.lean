import EntityQuery.Resource
/-!
# Schemas

An entity type is declared by a table of columns. Every entity has an identifier
and two instants beside its columns, and a column whose values are options may be
unset. The table alone determines the type of the entities, their descriptor and
the values of their fields.

The type by which a column is queried is declared next to the shape of its values.
Queries name a column as it was declared. What is stored has the name without the
mark of a raw identifier.
-/

namespace EntityQuery

/-- How the values of a column are represented. -/
inductive Shape
  | text
  | uuid
  | int32
  | int64
  | double
  | boolean
  | date
  | instant
  /-- One of the listed constants. -/
  | choice (constants : List String)
  deriving DecidableEq, Repr

def Shape.Carrier : Shape → Type
  | text => String
  | uuid => Uuid
  | int32 => Int32
  | int64 => Int64
  | double => Binary64
  | boolean => Bool
  | date => Date
  | instant => Instant
  | choice constants => { constant : String // constant ∈ constants }

/-- The name under which a field is stored: the mark `r#` of a raw identifier is left out. -/
def storedName (name : String) : String :=
  match name.toList with
  | 'r' :: '#' :: rest => String.ofList rest
  | _ => name

structure Column where
  name : String
  shape : Shape
  /-- How many options are wrapped around the values. Without any, every entity fills the column. -/
  options : Nat
  /-- The type by which filters read the column. -/
  type : FieldType
  deriving DecidableEq, Repr

/-- The name of the column in what is stored. -/
def Column.key (c : Column) : String :=
  storedName c.name

def baseFields : List (String × FieldType) :=
  [("id", .text), ("created_at", .dateTime), ("updated_at", .dateTime)]

/-- A declared entity type. A raw identifier and the name without its mark are one identifier. -/
structure Schema where
  singular : String
  plural : String
  columns : List Column
  keys_nodup : (baseFields.map Prod.fst ++ columns.map Column.key).Nodup := by decide
  /-- No name has the mark twice. -/
  keys_unmarked : ∀ c ∈ columns, storedName c.key = c.key := by decide

def Schema.descriptor (s : Schema) : Descriptor :=
  .ofDeclarations s.singular "id" (baseFields ++ s.columns.map fun c => (c.name, c.type))

inductive Cell (c : Column)
  | value (v : c.shape.Carrier)
  /-- Nothing, with `level` options around it that are there. -/
  | unset (level : Nat) (allowed : level < c.options)

inductive Cells : List Column → Type
  | nil : Cells []
  | cons {c : Column} {rest : List Column} (cell : Cell c) (cells : Cells rest) : Cells (c :: rest)

structure Entity (s : Schema) where
  id : Uuid
  createdAt : Instant
  updatedAt : Instant
  cells : Cells s.columns

def Shape.fieldValue : (shape : Shape) → shape.Carrier → FieldValue
  | text, s => .text s
  | uuid, u => .text u.toText
  | int32, n => .integer (Int64.ofInt n.toInt)
  | int64, n => .integer n
  | double, x => .decimal x
  | boolean, b => .boolean b
  | date, d => .date d
  | instant, t => .dateTime t
  | choice _, constant => .enum constant.val

/-- What a column holds as queries see it; unset is null. -/
def Cell.fieldValue {c : Column} : Cell c → FieldValue
  | value v => c.shape.fieldValue v
  | unset .. => .null

def Cells.value? (name : String) : {columns : List Column} → Cells columns → Option FieldValue
  | _, nil => none
  | c :: _, cons cell cells =>
    if c.name = name then some cell.fieldValue else cells.value? name

namespace Entity

variable {s : Schema}

def value? (e : Entity s) (name : String) : Option FieldValue :=
  if name = "id" then some (.text e.id.toText)
  else if name = "created_at" then some (.dateTime e.createdAt)
  else if name = "updated_at" then some (.dateTime e.updatedAt)
  else e.cells.value? name

/-- A new entity, created and last updated now. -/
def create (id : Uuid) (now : Instant) (cells : Cells s.columns) : Entity s :=
  ⟨id, now, now, cells⟩

/-- The entity, last updated now. -/
def touch (now : Instant) (e : Entity s) : Entity s :=
  { e with updatedAt := now }

end Entity

end EntityQuery
