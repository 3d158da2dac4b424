import EntityQuery.CompiledQuery
import EntityQuery.Store.Dialogue
import EntityQuery.Store.Relational.Statement
/-!
# The relational store

Saving sends one statement. A listing sends two, the page and then the count, and
reads the entities after both have been answered. The sort fields are checked
before anything is sent.
-/

namespace EntityQuery.Relational

/-- The one column of a row. -/
inductive Cell
  | null
  | json (value : Json)
  | int8 (value : Int64)

/-- What the server says to a statement. -/
inductive Reply
  | refused
  | rows (cells : List Cell)

abbrev Session (α : Type) := Dialogue Statement Reply (Except QueryError α)

def backend : String := "postgres"

def queryError (context : String) : QueryError :=
  .storage (.query backend context)

/-- Creates the table and its index if they are not there. -/
def ensureSchema : Session Unit :=
  .ask createTable fun
    | .refused => .done (.error (queryError "Failed to create entities table"))
    | .rows _ => .ask createIndex fun
      | .refused => .done (.error (queryError "Failed to create entity type index"))
      | .rows _ => .done (.ok ())

variable {α : Type} [Resource α]

def save (e : α) : Session α :=
  .ask (insert e) fun
    | .refused => .done (.error (queryError "Failed to save entity"))
    | .rows _ => .done (.ok e)

def readRow : Cell → Except QueryError α
  | .json data =>
    match Resource.decode? data with
    | some e => .ok e
    | none => .error (.storage (.serialization "Failed to deserialize entity from row"))
  | _ => .error (queryError "Failed to read data column")

def readCount : List Cell → Except QueryError Int64
  | [] => .error (queryError "Failed to count entities")
  | .int8 n :: _ => .ok n
  | _ :: _ => .error (queryError "Failed to read count")

def readPage (page : PageSpec) (rows countRows : List Cell) : Except QueryError (Page α) := do
  let total ← readCount countRows
  let content ← rows.mapM readRow
  return ⟨content, Saturating.ofInt64 total, page.index, page.size⟩

/-- The statements of a listing, the page before the count. -/
def statements (α : Type) [Resource α] (q : CompiledQuery) (page : PageSpec) :
    Except ValidationError (Statement × Statement) := do
  let d := Resource.descriptor α
  page.validateSort d
  match orderTerms d page.keys with
  | .error e => .error (.fields [e])
  | .ok order =>
    let filter := whereClause q.specification
    return (select α filter order page, count α filter)

def execute (q : CompiledQuery) (page : PageSpec) : Session (Page α) :=
  match statements α q page with
  | .error e => .done (.error (.validation e))
  | .ok (selectPage, countAll) =>
    .ask selectPage fun
      | .refused => .done (.error (queryError "Failed to fetch entities"))
      | .rows rows => .ask countAll fun
        | .refused => .done (.error (queryError "Failed to count entities"))
        | .rows countRows => .done (readPage page rows countRows)

end EntityQuery.Relational
