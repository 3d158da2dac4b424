import EntityQuery.Proofs.Number.Decimal
import EntityQuery.Proofs.Relational.Binding
import EntityQuery.Proofs.Relational.Table
import EntityQuery.Time.Reading
/-!
# How a database sorts rows

What a database makes of an `ORDER BY` clause. Each key has an expression, which has a value
for every row: a column, a member of the JSON in a column as text, and casts of texts. Values
of one type have an order. Texts are ordered by a language unless the key has the collation
`C`, which orders them by their bytes; of the order by a language nothing is known. A key tells
where its nulls stand, and keys are taken one after the other.

Of the grammar of expressions only what has such a form is read. Of regular expressions only
one pattern is known, which cuts off the digits of a fraction behind the sixth.
-/

namespace EntityQuery.Relational

open Sql

/-! ## Expressions -/

inductive CastType
  | bigint
  | doublePrecision
  | boolean
  | date
  | timestamptz
  deriving DecidableEq, Repr

inductive Expression
  | column (name : String)
  /-- A member of the JSON object in a column, as text. -/
  | member (column field : String)
  /-- A text with a replacement for the first match of a pattern. -/
  | replace (source : Expression) (pattern replacement : String)
  | cast (source : Expression) (type : CastType)
  deriving DecidableEq, Repr

/-- Reads the name of a type. -/
def CastType.scan? : List Token → Option (CastType × List Token)
  | .word "bigint" :: rest => some (bigint, rest)
  | .word "double" :: .word "precision" :: rest => some (doublePrecision, rest)
  | .word "boolean" :: rest => some (boolean, rest)
  | .word "date" :: rest => some (date, rest)
  | .word "timestamptz" :: rest => some (timestamptz, rest)
  | _ => none

namespace Expression

/-- Reads a member in brackets. -/
def scanMember? : List Token → Option (Expression × List Token)
  | .symbol "(" :: .word name :: .symbol "->>" :: .literal field :: .symbol ")" :: rest =>
    some (member name field, rest)
  | _ => none

/-- Reads what a cast can stand behind. -/
def scanOperand? : List Token → Option (Expression × List Token)
  | .word "regexp_replace" :: .symbol "(" :: rest => do
    let (source, rest) ← scanMember? rest
    match rest with
    | .symbol "," :: .literal pattern :: .symbol "," :: .literal replacement :: .symbol ")" ::
        rest => some (replace source pattern replacement, rest)
    | _ => none
  | .word name :: rest => some (column name, rest)
  | tokens => scanMember? tokens

def scan? (tokens : List Token) : Option (Expression × List Token) := do
  let (operand, rest) ← scanOperand? tokens
  match rest with
  | .symbol "::" :: rest => (CastType.scan? rest).map fun (type, rest) => (cast operand type, rest)
  | _ => some (operand, rest)

end Expression

/-! ## Clauses -/

/-- A key of an order as it is read. -/
structure OrderKey where
  expression : Expression
  /-- The collation, if the clause names one. -/
  collation : Option String
  direction : Direction
  nulls : NullsPlace
  deriving DecidableEq

namespace OrderKey

def scanCollation : List Token → Option String × List Token
  | .word "COLLATE" :: .identifier name :: rest => (some name, rest)
  | tokens => (none, tokens)

/-- Reads a direction, which is ascending if it is left out. -/
def scanDirection : List Token → Direction × List Token
  | .word "ASC" :: rest => (.ascending, rest)
  | .word "DESC" :: rest => (.descending, rest)
  | tokens => (.ascending, tokens)

/-- Reads the place of nulls. If it is left out, null is the greatest value. -/
def readNulls? (direction : Direction) : List Token → Option NullsPlace
  | [] => some (nullsPlace direction)
  | [.word "NULLS", .word "FIRST"] => some .first
  | [.word "NULLS", .word "LAST"] => some .last
  | _ => none

def read? (tokens : List Token) : Option OrderKey := do
  let (expression, rest) ← Expression.scan? tokens
  let (collation, rest) := scanCollation rest
  let (direction, rest) := scanDirection rest
  let nulls ← readNulls? direction rest
  some ⟨expression, collation, direction, nulls⟩

end OrderKey

def readOrder? (clause : String) : Option (List OrderKey) := do
  let tokens ← tokens? clause
  let parts ← parts? 0 [] (tokens ++ [.symbol ")"])
  parts.mapM OrderKey.read?

/-! ## Values -/

/-- A text without the digits behind the sixth of its first fraction that has more of them. -/
def cutFraction : List Char → List Char
  | [] => []
  | c :: rest =>
    let digits := rest.takeWhile Text.isDigit
    if c = '.' ∧ 6 < digits.length then '.' :: digits.take 6 ++ rest.dropWhile Text.isDigit
    else c :: cutFraction rest

/-- A text with a replacement for the first match of a pattern, if the pattern is known. -/
def replaceFirst? (pattern replacement : String) (cs : List Char) : Option (List Char) :=
  if pattern = "(\\.[0-9]\x7b6\x7d)[0-9]+" ∧ replacement = "\\1" then some (cutFraction cs)
  else none

/-- A value of JSON as text, unless it is made of others. Numbers have no power of ten. -/
def jsonText? : Json → Option String
  | .str s => some s
  | .bool b => some (if b then "true" else "false")
  | .int n => some (String.ofList (Integer.write n))
  | .float x => (Decimal.read? (x.write .json)).map fun d => String.ofList d.plainText
  | .null | .arr _ | .obj _ => none

/-- A member of JSON as text. It is null if the member is null or missing. -/
def memberText? (field : String) (data : Json) : Option Param :=
  match data.member? field with
  | none | some .null => some .null
  | some value => (jsonText? value).map .text

/-- A number as a double, unless it is out of range: then it would be infinite, or zero without
being zero. -/
def doubleOf? (d : Decimal) : Option Binary64 :=
  if d.toBinary64.isFinite && (d.coefficient = 0 || !d.toBinary64.isZero) then some d.toBinary64
  else none

/-- The microseconds from the start of the year 2000, the nearest whole number of them. -/
def nearestMicros (t : Instant) : Int :=
  (t.epochNanos - epochSeconds * 1000000000 + 500) / 1000

/-- The years that the database reads as the program writes them. It has no year 0, and takes no
sign in front of a later one. -/
def IsCountedYear (year : Int) : Prop :=
  1 ≤ year ∧ year ≤ 9999

instance (year : Int) : Decidable (IsCountedYear year) :=
  inferInstanceAs (Decidable (_ ∧ _))

/-- What a text is cast to. Truth values are read if they are written as whole words, dates and
instants if they are written as the program does, in a year that the database counts. -/
def CastType.read? : CastType → List Char → Option Param
  | bigint, cs => (Integer.read cs).toOption.map .int8
  | doublePrecision, cs => ((Decimal.read? cs).bind doubleOf?).map .float8
  | boolean, cs =>
    match String.ofList cs with
    | "true" => some (.bool true)
    | "false" => some (.bool false)
    | _ => none
  | date, cs => ((Date.readFixed? cs).filter (IsCountedYear ·.year)).map .date
  | timestamptz, cs =>
    if cs.getLast? = some 'Z' then
      ((Instant.readStrict? cs).filter (IsCountedYear ·.date.year)).map fun t =>
        .timestamptz (nearestMicros t)
    else none

/-- Applies a function of texts. Null stays null. -/
def Param.bindText? (f : List Char → Option Param) : Param → Option Param
  | text s => f s.toList
  | null => some null
  | _ => none

/-- The value of an expression for a row, unless there is an error. -/
def Expression.evaluate? (row : Row) : Expression → Option Param
  | column name => Assoc.lookup name row
  | member name field =>
    match Assoc.lookup name row with
    | some (.jsonb data) => memberText? field data
    | some .null => some .null
    | _ => none
  | replace source pattern replacement =>
    (source.evaluate? row).bind (Param.bindText? fun cs =>
      (replaceFirst? pattern replacement cs).map fun cs => .text (String.ofList cs))
  | cast source type => (source.evaluate? row).bind (Param.bindText? type.read?)

/-! ## The order of rows -/

/-- The order of two values of one type. Texts have one only by a collation that is known. -/
def Param.order? (collation : Option String) : Param → Param → Option Ordering
  | bool a, bool b => some (cmp a b)
  | int8 a, int8 b => some (cmp a.toInt b.toInt)
  | float8 a, float8 b => a.compare? b
  | text a, text b =>
    if collation = some "C" then
      some (cmp (Text.encodeUtf8 a.toList) (Text.encodeUtf8 b.toList))
    else none
  | date a, date b => some (cmp a.epochDay b.epochDay)
  | timestamptz a, timestamptz b => some (cmp a b)
  | uuid a, uuid b => some (cmp a.bytes b.bytes)
  | _, _ => none

/-- The order of null and any other value. -/
def NullsPlace.order : NullsPlace → Ordering
  | first => .lt
  | last => .gt

/-- The order of two values of a key. Where nulls stand does not depend on the direction. -/
def OrderKey.order? (key : OrderKey) : Param → Param → Option Ordering
  | .null, .null => some .eq
  | .null, _ => some key.nulls.order
  | _, .null => some key.nulls.order.swap
  | a, b => (a.order? key.collation b).map key.direction.apply

/-- The order of two rows by the keys, one after the other. -/
def rowOrder? : List OrderKey → Row → Row → Option Ordering
  | [], _, _ => some .eq
  | key :: rest, a, b => do
    let first ← key.order? (← key.expression.evaluate? a) (← key.expression.evaluate? b)
    let others ← rowOrder? rest a b
    some (first.then others)

/-! ## The clause of a page -/

def castType? : FieldType → Option CastType
  | .text | .enum _ => none
  | .integer => some .bigint
  | .decimal => some .doublePrecision
  | .boolean => some .boolean
  | .date => some .date
  | .dateTime => some .timestamptz

/-- The text that is cast. -/
def sourceExpression (field : String) : FieldType → Expression
  | .dateTime => .replace (.member "data" field) "(\\.[0-9]\x7b6\x7d)[0-9]+" "\\1"
  | _ => .member "data" field

def columnExpression (field : String) (type : FieldType) : Expression :=
  match castType? type with
  | some cast => .cast (sourceExpression field type) cast
  | none => sourceExpression field type

def fieldKey (field : String) (type : FieldType) (direction : Direction) : OrderKey :=
  ⟨columnExpression field type, if isBytewise type then some "C" else none, direction,
    nullsPlace direction⟩

def identifierKey : OrderKey :=
  ⟨.column "id", none, .ascending, .last⟩

def OrderTerm.key : OrderTerm → OrderKey
  | field name type direction => fieldKey name type direction
  | identifier => identifierKey

theorem read?_tokens (term : OrderTerm) : OrderKey.read? term.tokens = some term.key := by
  cases term with
  | identifier => rfl
  | field name type direction => cases type <;> cases direction <;> rfl

/-- There is no comma in a term but in brackets. -/
theorem parts?_append_tokens (term : OrderTerm) (part rest : List Token) :
    parts? 0 part (term.tokens ++ rest) = parts? 0 (part ++ term.tokens) rest := by
  cases term with
  | identifier => simp [OrderTerm.tokens, parts?]
  | field name type direction =>
      cases type <;> cases direction <;>
        simp [OrderTerm.tokens, columnTokens, columnPrefix, columnSuffix, castTokens, castWords,
          isBytewise, nullsPlace, NullsPlace.tokens, parts?]

theorem parts?_orderTokens {terms : List OrderTerm} (h : terms ≠ []) :
    parts? 0 [] (orderTokens terms ++ [.symbol ")"]) = some (terms.map OrderTerm.tokens) := by
  induction terms with
  | nil => exact absurd rfl h
  | cons term rest ih =>
      cases rest with
      | nil =>
          rw [orderTokens, List.map_singleton, List.intercalate_singleton, parts?_append_tokens]
          rfl
      | cons next rest =>
          have htokens : orderTokens (term :: next :: rest) ++ [.symbol ")"] =
              term.tokens ++ .symbol "," :: (orderTokens (next :: rest) ++ [.symbol ")"]) := by
            rw [orderTokens, List.map_cons, List.map_cons, List.intercalate_cons_cons]
            simp [orderTokens]
          have hcomma (part tokens : List Token) :
              parts? 0 part (.symbol "," :: tokens) = (parts? 0 [] tokens).map (part :: ·) := by
            simp [parts?]
          rw [htokens, parts?_append_tokens, hcomma, ih (List.cons_ne_nil next rest)]
          rfl

/-- The clause of a page reads as the keys of its terms. -/
theorem readOrder?_orderText {terms : List OrderTerm} (h : terms ≠ []) :
    readOrder? (orderText terms) = some (terms.map OrderTerm.key) := by
  have hkeys (terms : List OrderTerm) :
      (terms.map OrderTerm.tokens).mapM OrderKey.read? = some (terms.map OrderTerm.key) := by
    induction terms with
    | nil => rfl
    | cons term rest ih =>
        rw [List.map_cons, List.mapM_cons, read?_tokens, ih]
        rfl
  rw [readOrder?, tokens?_orderText]
  simp only [Option.bind_eq_bind, Option.bind_some, parts?_orderTokens h, hkeys]

end EntityQuery.Relational
