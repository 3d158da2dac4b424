import EntityQuery.Descriptor
import EntityQuery.Json.Basic
import EntityQuery.Number.Saturating
/-!
# Pages

Which part of a listing is asked for, in which order. Pages are counted from
zero. Without sort fields a listing is ordered by the identity field, ascending
whatever direction is asked for; with them every field has the one direction.
-/

namespace EntityQuery

inductive Direction
  | ascending
  | descending
  deriving DecidableEq, Repr

namespace Direction

/-- The wire name, which is also the SQL keyword. -/
def name : Direction → String
  | ascending => "ASC"
  | descending => "DESC"

def ofName? (s : String) : Option Direction :=
  [ascending, descending].find? fun d => d.name == s

/-- Turns an ascending order into the order of the direction. -/
def apply : Direction → Ordering → Ordering
  | ascending, order => order
  | descending, order => order.swap

end Direction

structure SortKey where
  field : String
  direction : Direction
  deriving DecidableEq, Repr

/-- One page of an ordered listing. -/
structure PageSpec where
  index : UInt64
  size : UInt64
  /-- The keys, most significant first. -/
  keys : List SortKey
  deriving DecidableEq, Repr

namespace PageSpec

/-- How many entities come before the page. -/
def offset (p : PageSpec) : UInt64 :=
  Saturating.mul p.index p.size

def sortKeys (d : Descriptor) (direction : Option Direction) : List String → List SortKey
  | [] => [⟨d.identity, .ascending⟩]
  | field :: rest => (field :: rest).map fun f => ⟨f, direction.getD .ascending⟩

/-- The page of a request, whose index is not negative and whose size is at least one. -/
def assemble (d : Descriptor) (index size : Int64) (direction : Option Direction)
    (sort : Option (List String)) : Except ValidationError PageSpec :=
  if index.toInt < 0 then .error (.invalidPage index size "page index must be >= 0")
  else if size.toInt < 1 then .error (.invalidPage index size "page size must be >= 1")
  else .ok
    { index := Saturating.ofInt64 index
      size := Saturating.ofInt64 size
      keys := sortKeys d direction (sort.getD []) }

/-- Accepts a page whose keys are declared fields; the others are reported together. -/
def validateSort (d : Descriptor) (p : PageSpec) : Except ValidationError Unit :=
  let unknown := p.keys.filter fun key => !d.contains key.field
  if unknown.isEmpty then .ok ()
  else .error (.fields (unknown.map fun key => .unknownField d.entity key.field))

/-- The greatest number of entities to fetch, as stores take it. -/
def limit (p : PageSpec) : Int64 :=
  Saturating.toInt64 p.size

/-- The number of entities to pass over, as stores take it. -/
def skip (p : PageSpec) : Int64 :=
  Saturating.toInt64 p.offset

def toJson (p : PageSpec) : Json :=
  .obj [("page_index", .int p.index.toNat), ("page_size", .int p.size.toNat),
    ("orders", .arr (p.keys.map fun key =>
      .obj [("field", .str key.field), ("direction", .str key.direction.name)]))]

end PageSpec

/-- The entities of one page, with the number of entities on all pages. -/
structure Page (α : Type) where
  content : List α
  total : UInt64
  index : UInt64
  size : UInt64
  deriving DecidableEq, Repr

def PageSpec.cut (p : PageSpec) (entities : List α) : Page α where
  content := (entities.drop p.offset.toNat).take p.size.toNat
  total := Saturating.ofNat entities.length
  index := p.index
  size := p.size

def Page.map (f : α → β) (p : Page α) : Page β :=
  { p with content := p.content.map f }

end EntityQuery
