import EntityQuery.Listing.FilterText
import EntityQuery.Page
import EntityQuery.Text.Blank
/-!
# Parameters of a listing

What a request for a listing may name: a page, its size, the sort fields with one
direction, and filters. The sort fields stand in one text with commas between
them and the filters are a JSON text; a blank text is no text.
-/

namespace EntityQuery

structure QueryParams where
  page : Int64 := 0
  size : Option Int64 := none
  direction : Option Direction := none
  /-- Field names with commas between them. -/
  sort : Option String := none
  /-- A JSON array of filters. -/
  filter : Option String := none
  deriving DecidableEq

namespace QueryParams

def sizeOr (p : QueryParams) (default : Int64) : Int64 :=
  p.size.getD default

/-- The names of a text of sort fields: trimmed, blank ones left out. -/
def splitFields (text : String) : List String :=
  ((text.toList.splitOn ',').map Text.trim).filterMap fun name =>
    if name.isEmpty then none else some (String.ofList name)

def sortFields (p : QueryParams) : Option (List String) :=
  match p.sort.map splitFields with
  | none => none
  | some [] => none
  | some fields => some fields

def filters (p : QueryParams) : Except ValidationError (Option (List Filter)) :=
  match p.filter.map fun text => Text.trim text.toList with
  | none => .ok none
  | some [] => .ok none
  | some text =>
    match Filter.readList? text with
    | some filters => .ok (some filters)
    | none => .error (.invalidJson "expected a list of filters")

/-! ## Parameters as JSON -/

/-- A signed 64-bit number. -/
def integerOfJson? (v : Json) : Option Int64 :=
  v.int?.bind Integer.ofInt?

def directionOfJson? (v : Json) : Option Direction :=
  v.word?.bind Direction.ofName?

/-- A value that may be null. -/
def nullable (read : Json → Option α) : Json → Option (Option α)
  | .null => some none
  | v => (read v).map some

/-- A value that may be missing, with what it stands for then. -/
def missingOr (default : α) (read : Json → Option α) : Option Json → Option α
  | none => some default
  | some v => read v

/-- Parameters from values that may be missing. -/
def ofParts? (page size direction sort filter : Option Json) : Option QueryParams := do
  let page ← missingOr 0 integerOfJson? page
  let size ← missingOr none (nullable integerOfJson?) size
  let direction ← missingOr none (nullable directionOfJson?) direction
  let sort ← missingOr none (nullable Json.str?) sort
  let filter ← missingOr none (nullable Json.str?) filter
  some { page, size, direction, sort, filter }

/-- Parameters from an object with any of the five members, or from an array of at most five
values. -/
def ofJson? : Json → Option QueryParams
  | .obj members =>
    let part name := Assoc.lookup name members
    ofParts? (part "page") (part "size") (part "direction") (part "sort") (part "filter")
  | .arr items =>
    if items.length ≤ 5 then ofParts? items[0]? items[1]? items[2]? items[3]? items[4]? else none
  | _ => none

end QueryParams

end EntityQuery
