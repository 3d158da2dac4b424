import EntityQuery.Assoc
import EntityQuery.Proofs.Sql.Token
import EntityQuery.Store.Relational
/-!
# The table of a relational store

How a database executes the statements that create tables and write rows. A table is created
with the columns that its definition lists, of which those of the primary key tell rows apart. A
row is inserted with values for its columns. If the table has a row with the same key already,
and the statement says what to do on a conflict on just the columns of the key, then the columns
of that row that the statement lists are changed and no others.

Constraints beside the key and the types of columns have no part in this.
-/

namespace EntityQuery.Relational

open Sql

/-! ## Definitions of tables -/

/-- Reads items with commas between them up to a closing bracket. -/
def readItems? {α : Type} (item : Token → Option α) : List Token → Option (List α × List Token)
  | token :: .symbol ")" :: rest => (item token).map fun a => ([a], rest)
  | token :: .symbol "," :: rest => do
    let a ← item token
    let (items, rest) ← readItems? item rest
    some (a :: items, rest)
  | _ => none

/-- Cuts tokens at the commas that stand in no inner brackets, up to the last bracket. -/
def parts? : Nat → List Token → List Token → Option (List (List Token))
  | _, _, [] => none
  | 0, part, [.symbol ")"] => some [part]
  | 0, _, .symbol ")" :: _ => none
  | 0, part, .symbol "," :: rest => (parts? 0 [] rest).map (part :: ·)
  | depth, part, .symbol "(" :: rest => parts? (depth + 1) (part ++ [.symbol "("]) rest
  | depth + 1, part, .symbol ")" :: rest => parts? depth (part ++ [.symbol ")"]) rest
  | depth, part, token :: rest => parts? depth (part ++ [token]) rest

/-- A table by its name, its columns, and those whose values tell its rows apart. -/
structure TableDefinition where
  name : String
  columns : List String
  key : List String
  deriving DecidableEq

namespace TableDefinition

/-- The columns that a part of a definition lists, and those that it adds to the key. -/
def readPart? : List Token → Option (List String × List String)
  | .word "PRIMARY" :: .word "KEY" :: .symbol "(" :: rest =>
    (readItems? Token.word? rest).map fun (names, _) => ([], names)
  | .word name :: rest => some ([name], if .word "PRIMARY" ∈ rest then [name] else [])
  | _ => none

def read? : List Token → Option TableDefinition
  | .word "CREATE" :: .word "TABLE" :: .word "IF" :: .word "NOT" :: .word "EXISTS" ::
      .word name :: .symbol "(" :: rest => do
    let parts ← parts? 0 [] rest
    let lists ← parts.mapM readPart?
    some ⟨name, lists.flatMap Prod.fst, lists.flatMap Prod.snd⟩
  | _ => none

end TableDefinition

/-! ## Insertions -/

/-- A statement that inserts a row or else updates the row with its key. -/
structure Insertion where
  table : String
  columns : List String
  /-- The numbers of the placeholders of the columns. -/
  values : List Nat
  /-- The columns on which a conflict leads to an update. -/
  target : List String
  /-- The columns that are changed then, each with the column of the new row it is taken from. -/
  updates : List (String × String)
  deriving DecidableEq

namespace Insertion

/-- Reads changes of columns to values of the row that was not inserted. -/
def readUpdates? : List Token → Option (List (String × String))
  | [.word column, .symbol "=", .word "EXCLUDED", .symbol ".", .word source] =>
    some [(column, source)]
  | .word column :: .symbol "=" :: .word "EXCLUDED" :: .symbol "." :: .word source ::
      .symbol "," :: rest =>
    (readUpdates? rest).map ((column, source) :: ·)
  | _ => none

def readConflict? : List Token → Option (List String × List (String × String))
  | .word "ON" :: .word "CONFLICT" :: .symbol "(" :: rest => do
    let (target, rest) ← readItems? Token.word? rest
    match rest with
    | .word "DO" :: .word "UPDATE" :: .word "SET" :: rest =>
      (readUpdates? rest).map fun updates => (target, updates)
    | _ => none
  | _ => none

def read? : List Token → Option Insertion
  | .word "INSERT" :: .word "INTO" :: .word table :: .symbol "(" :: rest => do
    let (columns, rest) ← readItems? Token.word? rest
    match rest with
    | .word "VALUES" :: .symbol "(" :: rest => do
      let (values, rest) ← readItems? Token.number? rest
      let (target, updates) ← readConflict? rest
      some ⟨table, columns, values, target, updates⟩
    | _ => none
  | _ => none

end Insertion

/-- A statement that changes the database. -/
inductive Change
  | table (definition : TableDefinition)
  /-- An index, which changes no rows. -/
  | index
  | row (insertion : Insertion)
  deriving DecidableEq

def Change.read? (tokens : List Token) : Option Change :=
  match tokens with
  | .word "CREATE" :: .word "INDEX" :: _ => some index
  | .word "INSERT" :: _ => (Insertion.read? tokens).map row
  | _ => (TableDefinition.read? tokens).map table

/-! ## Rows -/

abbrev Row := List (String × Param)

/-- Whether two values of a key are equal. Null is equal to nothing. -/
def Param.isSame : Param → Param → Bool
  | bool a, bool b => a = b
  | int8 a, int8 b => a = b
  | text a, text b => a = b
  | date a, date b => a = b
  | timestamptz a, timestamptz b => a = b
  | uuid a, uuid b => a = b
  | _, _ => false

namespace Row

/-- Whether two rows have the same key. -/
def conflicts (key : List String) (a b : Row) : Bool :=
  key.all fun column =>
    match Assoc.lookup column a, Assoc.lookup column b with
    | some x, some y => x.isSame y
    | _, _ => false

/-- The row with columns changed to values of the row that was not inserted. -/
def update (updates : List (String × String)) (excluded row : Row) : Row :=
  updates.foldl (fun row (column, source) =>
    match Assoc.lookup source excluded with
    | some value => Assoc.insert column value row
    | none => row) row

/-- Inserts a row, or updates the one with its key. -/
def upsert (key : List String) (updates : List (String × String)) (row : Row) : List Row → List Row
  | [] => [row]
  | x :: rest =>
    if conflicts key x row then update updates row x :: rest else x :: upsert key updates row rest

end Row

/-! ## Databases -/

structure Table where
  definition : TableDefinition
  rows : List Row

/-- Executes an insertion with the values of its placeholders. -/
def Table.insert? (table : Table) (i : Insertion) (params : List Param) : Option Table := do
  let values ← i.values.mapM fun n => params[n - 1]?
  if i.table = table.definition.name ∧ i.target = table.definition.key ∧
      i.columns.all (· ∈ table.definition.columns) ∧ values.length = i.columns.length then
    some { table with rows := Row.upsert i.target i.updates (i.columns.zip values) table.rows }
  else none

/-- A database with one table, once it is created. -/
abbrev Database := Option Table

namespace Database

/-- Makes a change with the values of its placeholders. A table that is there is not created
again. -/
def change? (params : List Param) (db : Database) : Change → Option Database
  | .table definition => some (some (db.getD ⟨definition, []⟩))
  | .index => some db
  | .row insertion => (db.bind (·.insert? insertion params)).map some

def execute? (db : Database) (s : Statement) : Option Database :=
  ((tokens? s.sql).bind Change.read?).bind (db.change? s.params)

/-- The database after a session in which it executes every statement. -/
def hold? {α : Type} : Session α → Database → Option Database
  | .done _, db => some db
  | .ask s next, db => (db.execute? s).bind (hold? (next (.rows [])))

end Database

end EntityQuery.Relational
