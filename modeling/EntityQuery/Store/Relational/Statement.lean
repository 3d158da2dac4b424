import EntityQuery.Resource
import EntityQuery.Sql.Fragment
import EntityQuery.Page
/-!
# Statements of the relational store

All entities stand in one table, the entity as a JSON document in the column
`data`. A field is read out of the document as text and cast to the SQL type of
its field type. An instant is cut off to microseconds before the cast, which would
round it.
-/

namespace EntityQuery.Relational

open Sql

/-- A value bound to a placeholder, by its SQL type. -/
inductive Param
  | bool (value : Bool)
  | int8 (value : Int64)
  | float8 (value : Binary64)
  | text (value : String)
  | date (value : Date)
  /-- Microseconds from the start of the year 2000. -/
  | timestamptz (micros : Int)
  | uuid (value : Uuid)
  | jsonb (value : Json)
  | null

/-- A statement and its bound values in the order of the placeholders. -/
structure Statement where
  sql : String
  params : List Param

/-- The start of the year 2000, in seconds from 1970-01-01. -/
def epochSeconds : Int := 946684800

/-- Microseconds from the start of the year 2000, cut off towards it. -/
def microsOf (t : Instant) : Int :=
  (t.epochNanos - epochSeconds * 1000000000).tdiv 1000

/-- The instant a number of microseconds from the start of the year 2000. -/
def instantOf? (micros : Int) : Option Instant :=
  Instant.ofEpochNanos? (epochSeconds * 1000000000 + micros * 1000)

namespace Param

/-- An instant to the microsecond. -/
def ofInstant (t : Instant) : Param :=
  timestamptz (microsOf t)

def ofFieldValue : FieldValue → Param
  | .text s | .enum s => text s
  | .integer n => int8 n
  | .decimal x => float8 x
  | .boolean b => bool b
  | .date d => date d
  | .dateTime t => ofInstant t
  | .null => null

end Param

def documentText (field : String) : String :=
  "(data->>" ++ quoteLiteral field ++ ")"

def documentColumn : ColumnStyle := fun field type =>
  match type with
  | .text | .enum _ => documentText field
  | .integer => documentText field ++ "::bigint"
  | .decimal => documentText field ++ "::double precision"
  | .boolean => documentText field ++ "::boolean"
  | .date => documentText field ++ "::date"
  | .dateTime =>
    "regexp_replace(" ++ documentText field ++
      ", '(\\.[0-9]\x7b6\x7d)[0-9]+', '\\1')::timestamptz"

/-- The restriction to an entity type and to a query. The first placeholder is the entity type. -/
def whereClause (specification : Option Specification) : Fragment :=
  match specification with
  | none => ⟨"entity_type = $1", []⟩
  | some spec =>
    let filter := render .dollar 2 documentColumn spec
    ⟨"entity_type = $1 AND " ++ filter.sql, filter.params⟩

/-! ## Order -/

/-- Where nulls stand in an order. -/
inductive NullsPlace
  | first
  | last
  deriving DecidableEq, Repr

/-- A key of the order of rows. -/
inductive OrderTerm
  /-- A field of the document. -/
  | field (name : String) (type : FieldType) (direction : Direction)
  /-- The identifier column, ascending. -/
  | identifier
  deriving DecidableEq, Repr

/-- Null is the greatest value. -/
def nullsPlace : Direction → NullsPlace
  | .ascending => .last
  | .descending => .first

/-- Whether values of a type are ordered by their bytes and not by a language. -/
def isBytewise : FieldType → Bool
  | .text | .enum _ => true
  | _ => false

def NullsPlace.text : NullsPlace → String
  | first => "NULLS FIRST"
  | last => "NULLS LAST"

/-- A key as it stands in the clause. -/
def OrderTerm.text : OrderTerm → String
  | field name type direction =>
    documentColumn name type ++ (if isBytewise type then " COLLATE \"C\"" else "") ++ " " ++
      direction.name ++ " " ++ (nullsPlace direction).text
  | identifier => "id ASC"

/-- The term of a key, whose field has to be declared. -/
def orderTerm (d : Descriptor) (key : SortKey) : Except FilterError OrderTerm := do
  let type ← d.resolve key.field
  return .field key.field type key.direction

/-- The terms of the keys, and the identifier last. -/
def orderTerms (d : Descriptor) (keys : List SortKey) : Except FilterError (List OrderTerm) := do
  let terms ← keys.mapM (orderTerm d)
  return terms ++ [.identifier]

/-- The keys of a clause with commas between them. -/
def orderText (terms : List OrderTerm) : String :=
  ", ".intercalate (terms.map OrderTerm.text)

/-! ## Statements -/

def createTable : Statement where
  sql :=
    "CREATE TABLE IF NOT EXISTS entities (\n" ++
    "            id UUID PRIMARY KEY,\n" ++
    "            entity_type VARCHAR(255) NOT NULL,\n" ++
    "            data JSONB NOT NULL,\n" ++
    "            created_at TIMESTAMPTZ NOT NULL,\n" ++
    "            updated_at TIMESTAMPTZ NOT NULL\n" ++
    "        )"
  params := []

def createIndex : Statement where
  sql := "CREATE INDEX IF NOT EXISTS idx_entities_type ON entities (entity_type)"
  params := []

section

variable {α : Type} [Resource α]

/-- Writes an entity in place of the row with its identifier. -/
def insert (e : α) : Statement where
  sql :=
    "INSERT INTO entities (id, entity_type, data, created_at, updated_at) " ++
    "VALUES ($1, $2, $3, $4, $5) " ++
    "ON CONFLICT (id) DO UPDATE SET data = EXCLUDED.data, updated_at = EXCLUDED.updated_at"
  params :=
    [.uuid (Resource.id e), .text (Resource.singular α), .jsonb (Resource.encode e),
      .ofInstant (Resource.createdAt e), .ofInstant (Resource.updatedAt e)]

variable (α)

/-- The values of the restriction: the entity type and the values of the filters. -/
def whereParams (filter : Fragment) : List Param :=
  .text (Resource.singular α) :: filter.params.map .ofFieldValue

/-- Fetches one page of the documents under a restriction. -/
def select (filter : Fragment) (order : List OrderTerm) (page : PageSpec) : Statement :=
  let limit := filter.params.length + 2
  { sql := "SELECT data FROM entities WHERE " ++ filter.sql ++ " ORDER BY " ++ orderText order ++
      " LIMIT " ++ Placeholder.dollar.text limit ++
      " OFFSET " ++ Placeholder.dollar.text (limit + 1)
    params := whereParams α filter ++ [.int8 page.limit, .int8 page.skip] }

def count (filter : Fragment) : Statement where
  sql := "SELECT COUNT(*) FROM entities WHERE " ++ filter.sql
  params := whereParams α filter

end

end EntityQuery.Relational
