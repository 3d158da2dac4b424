import EntityQuery.Entity.Schema
import EntityQuery.Time.Reading
/-!
# Entities as JSON

An entity is written as an object with all its fields in the order of declaration,
unset ones as null. It is read from an object, in which unset fields may be
missing and other members are ignored, or from an array of exactly the values of
all fields. However many options there are around a value, null is read as the
outermost of them.
-/

namespace EntityQuery

def Shape.encode : (shape : Shape) → shape.Carrier → Json
  | text, s => .str s
  | uuid, u => .str u.toText
  | int32, n => .int n.toInt
  | int64, n => .int n.toInt
  | double, x => .ofBinary64 x
  | boolean, b => .bool b
  | date, d => .str (String.ofList d.write)
  | instant, t => .str (String.ofList (t.write .shortest))
  | choice _, constant => .str constant.val

/-- The signed 32-bit number with the given value, if there is one. -/
def int32OfInt? (n : Int) : Option Int32 :=
  if -0x80000000 ≤ n ∧ n ≤ 0x7FFFFFFF then some (Int32.ofInt n) else none

/-- The value of a shape that JSON denotes, if any. -/
def Shape.decode? : (shape : Shape) → Json → Option shape.Carrier
  | text, v => v.str?
  | uuid, v => v.str?.bind fun s => Uuid.read? s.toList
  | int32, v => v.int?.bind int32OfInt?
  | int64, v => v.int?.bind Integer.ofInt?
  | double, v => v.number?
  | boolean, v => v.bool?
  | date, v => v.str?.bind fun s => Date.readLoose? s.toList
  | instant, v => v.str?.bind fun s => Instant.readLoose? s.toList
  | choice constants, v => v.word?.bind fun word =>
    if h : word ∈ constants then some ⟨word, h⟩ else none

def Cell.encode {c : Column} : Cell c → Json
  | value v => c.shape.encode v
  | unset .. => .null

/-- What a column holds by JSON that may be missing. -/
def Cell.decode? (c : Column) (v : Option Json) : Option (Cell c) :=
  match v with
  | none | some .null =>
    if h : 0 < c.options then some (.unset 0 h) else none
  | some v => (c.shape.decode? v).map .value

def Cells.encode : {columns : List Column} → Cells columns → List (String × Json)
  | _, nil => []
  | c :: _, cons cell cells => (c.key, cell.encode) :: cells.encode

def Cells.decode? (members : List (String × Json)) :
    (columns : List Column) → Option (Cells columns)
  | [] => some nil
  | c :: rest => do
    let cell ← Cell.decode? c (Assoc.lookup c.key members)
    let cells ← decode? members rest
    some (cons cell cells)

namespace Entity

variable {s : Schema}

def encode (e : Entity s) : Json :=
  .obj (("id", Shape.uuid.encode e.id) :: ("created_at", Shape.instant.encode e.createdAt) ::
    ("updated_at", Shape.instant.encode e.updatedAt) :: e.cells.encode)

def memberNames (s : Schema) : List String :=
  baseFields.map Prod.fst ++ s.columns.map Column.key

/-- The entity that the members of an object denote, if any. -/
def ofMembers? (members : List (String × Json)) : Option (Entity s) := do
  let id ← (Assoc.lookup "id" members).bind Shape.uuid.decode?
  let createdAt ← (Assoc.lookup "created_at" members).bind Shape.instant.decode?
  let updatedAt ← (Assoc.lookup "updated_at" members).bind Shape.instant.decode?
  let cells ← Cells.decode? members s.columns
  some ⟨id, createdAt, updatedAt, cells⟩

/-- The entity of an object or of an array of values. -/
def decode? : Json → Option (Entity s)
  | .obj members => ofMembers? members
  | .arr items =>
    if items.length = (memberNames s).length then ofMembers? ((memberNames s).zip items) else none
  | _ => none

end Entity

/-- The entities of a schema can be stored and listed. -/
instance (s : Schema) : Resource (Entity s) where
  singular := s.singular
  plural := s.plural
  descriptor := s.descriptor
  id := Entity.id
  createdAt := Entity.createdAt
  updatedAt := Entity.updatedAt
  value? := Entity.value?
  encode := Entity.encode
  decode? := Entity.decode?

end EntityQuery
