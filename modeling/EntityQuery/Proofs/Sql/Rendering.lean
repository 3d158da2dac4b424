import EntityQuery.Proofs.Sql.Token
import EntityQuery.Store.Relational.Statement
/-!
# How a rendered specification reads

The text of a specification, cut into tokens again, is the conjunction of its comparisons:
whatever the names of the fields are, no character of them becomes a token of its own. A
column is read first, then a comparison around its column, then the comparisons with AND
between them, the number of the placeholder growing by one from each to the next.
-/

namespace EntityQuery

/-- What the text of a comparison is made of: all of it but the value. -/
def Comparison.shape (c : Comparison) : String × FieldType × SqlOperator :=
  (c.field, c.type, c.operator)

def SqlOperator.token : SqlOperator → Sql.Token
  | like => .word "LIKE"
  | op => .symbol op.text

namespace Sql

/-! ## What a comparison should read as -/

def Placeholder.token : Placeholder → Nat → Token
  | dollar, n => .numbered n
  | question, _ => .anonymous

def comparisonTokens (placeholder : Placeholder) (column : List Token) (n : Nat)
    (c : Comparison) : List Token :=
  column ++ [c.operator.token, placeholder.token n] ++
    if c.operator = .like then [.word "ESCAPE", .literal "\\"] else []

/-- The tokens of comparisons joined by AND, with placeholders numbered from `first`. -/
def conjunctionTokens (placeholder : Placeholder) (first : Nat)
    (column : Comparison → List Token) (comparisons : List Comparison) : List Token :=
  [Token.word "AND"].intercalate
    (comparisons.mapIdx fun i c => comparisonTokens placeholder (column c) (first + i) c)

/-! ## Columns -/

theorem run?_quoteLiteral {m : Mode} {ended : List Token} (hextend : m.extend? '\'' = none)
    (hend : m.finish? = some ended) (s : String) :
    m.run? (quoteLiteral s).toList = some (ended, .closing .single s.toList) := by
  have hquote : m.extend? Quote.single.char = none := hextend
  rw [quoteLiteral, String.toList_ofList]
  exact Mode.run?_quote hquote hend s.toList

/-- A name in double quotes is one token, whatever the name is. -/
theorem tokens?_quoteIdentifier (name : String) :
    tokens? (quoteIdentifier name) = some [.identifier name] := by
  have hquote : Mode.between.extend? Quote.double.char = none := rfl
  have hrun : Mode.between.run? (quoteIdentifier name).toList =
      some ([], .closing .double name.toList) := by
    rw [quoteIdentifier, String.toList_ofList]
    exact Mode.run?_quote hquote rfl name.toList
  rw [tokens?, hrun]
  simp [Mode.finish?, Quote.token]

theorem tokens?_plainColumn (field : String) (type : FieldType) :
    tokens? (plainColumn field type) = some [.identifier field] :=
  tokens?_quoteIdentifier field

end Sql

namespace Relational

open Sql

/-- The words of the SQL type that a column of a field type is cast to. Texts are not cast. -/
def castWords : FieldType → List String
  | .text | .enum _ => []
  | .integer => ["bigint"]
  | .decimal => ["double", "precision"]
  | .boolean => ["boolean"]
  | .date => ["date"]
  | .dateTime => ["timestamptz"]

def castTokens : List String → List Token
  | [] => []
  | words => .symbol "::" :: words.map .word

/-- What stands in a column in front of the arrow. -/
def columnPrefix : FieldType → List Token
  | .dateTime => [.word "regexp_replace", .symbol "(", .symbol "(", .word "data"]
  | _ => [.symbol "(", .word "data"]

/-- What stands in a column behind the name of the field. -/
def columnSuffix (type : FieldType) : List Token :=
  let cut : List Token := match type with
    | .dateTime =>
      [.symbol ",", .literal "(\\.[0-9]\x7b6\x7d)[0-9]+", .symbol ",", .literal "\\1", .symbol ")"]
    | _ => []
  .symbol ")" :: cut ++ castTokens (castWords type)

def columnTokens (field : String) (type : FieldType) : List Token :=
  columnPrefix type ++ .symbol "->>" :: .literal field :: columnSuffix type

/-- The arrow in front of the name of the field is the only one. -/
theorem arrow_not_mem (type : FieldType) :
    .symbol "->>" ∉ columnPrefix type ++ columnSuffix type := by
  cases type <;> simp [columnPrefix, columnSuffix, castTokens, castWords]

/-- What is written in a column in front of the name of the field. -/
def columnFront : FieldType → String
  | .dateTime => "regexp_replace((data->>"
  | _ => "(data->>"

/-- What is written in a column behind the name of the field. -/
def columnBack : FieldType → String
  | .text | .enum _ => ")"
  | .integer => ")::bigint"
  | .decimal => ")::double precision"
  | .boolean => ")::boolean"
  | .date => ")::date"
  | .dateTime => "), '(\\.[0-9]\x7b6\x7d)[0-9]+', '\\1')::timestamptz"

theorem documentColumn_eq (field : String) (type : FieldType) :
    documentColumn field type = columnFront type ++ quoteLiteral field ++ columnBack type := by
  have hfront : columnFront .dateTime = "regexp_replace(" ++ "(data->>" := rfl
  cases type with
  | dateTime =>
      rw [hfront]
      simp only [documentColumn, documentText, columnBack, String.append_assoc]
      rfl
  | _ => simp [documentColumn, documentText, columnFront, columnBack, String.append_assoc]

theorem tokens?_documentColumn (field : String) (type : FieldType) :
    tokens? (documentColumn field type) = some (columnTokens field type) := by
  -- The arrow is still open where the quote begins, and the quote where the back begins.
  have hfront : Mode.between.run? (columnFront type).toList =
      some (columnPrefix type, .unquoted .operator ['-', '>', '>']) := by
    cases type <;> simp only [columnFront, columnPrefix] <;> rfl
  have hquote : (Mode.unquoted .operator ['-', '>', '>']).run? (quoteLiteral field).toList =
      some ([.symbol "->>"], .closing .single field.toList) :=
    run?_quoteLiteral rfl rfl field
  obtain ⟨tokens, last, ended, hback, hend, hsuffix⟩ :
      ∃ tokens last ended,
        (Mode.closing .single field.toList).run? (columnBack type).toList = some (tokens, last) ∧
        last.finish? = some ended ∧
        tokens ++ ended = .literal (String.ofList field.toList) :: columnSuffix type := by
    cases type <;> simp only [columnBack, columnSuffix] <;> exact ⟨_, _, _, rfl, rfl, rfl⟩
  have hrun : Mode.between.run? (documentColumn field type).toList =
      some (columnPrefix type ++ .symbol "->>" :: tokens, last) := by
    rw [documentColumn_eq, String.toList_append, String.toList_append, List.append_assoc,
      Mode.run?_append_of hfront, Mode.run?_append_of hquote, hback]
    rfl
  rw [String.ofList_toList] at hsuffix
  rw [tokens?, hrun, columnTokens, ← hsuffix]
  simp [hend]

end Relational

namespace Sql

/-! ## Comparisons -/

theorem tokens?_operator (op : SqlOperator) : tokens? op.text = some [op.token] := by
  cases op <;> rfl

/-- A placeholder is one token that keeps its number. -/
theorem tokens?_placeholder (placeholder : Placeholder) (n : Nat) :
    tokens? (placeholder.text n) = some [placeholder.token n] := by
  cases placeholder with
  | question =>
      show tokens? "?" = some [.anonymous]
      rfl
  | dollar =>
      have hdigits : ∀ c ∈ Text.natDigits n, TokenClass.parameter.admits c = true :=
        fun c hc => Text.isDigit_of_mem_natDigits hc
      have htoken : TokenClass.parameter.token? ('$' :: Text.natDigits n) = some (.numbered n) := by
        obtain ⟨c, cs, hcons⟩ : ∃ c cs, Text.natDigits n = c :: cs :=
          List.exists_cons_of_ne_nil Nat.toDigits_ne_nil
        have hread : Text.natOfDigits (c :: cs) = n := hcons ▸ Text.natOfDigits_natDigits n
        rw [hcons, ← hread]
        rfl
      have htext : (Placeholder.dollar.text n).toList = '$' :: Text.natDigits n := by
        simp [Placeholder.text, String.toList_append]
      have hdollar : Mode.between.step? '$' = some ([], .unquoted .parameter ['$']) := rfl
      rw [tokens?, htext, Mode.run?_cons_of hdollar, Mode.run?_admitted _ _ hdigits]
      simp [Mode.finish?, htoken, Placeholder.token]

/-- A comparison reads as its column, its operator and its placeholder, and what makes the
backslash the escape character of `LIKE`. -/
theorem tokens?_clause {column : ColumnStyle} {c : Comparison} {read : List Token}
    (hcolumn : tokens? (column c.field c.type) = some read) (placeholder : Placeholder) (n : Nat) :
    tokens? (clause placeholder column n c) = some (comparisonTokens placeholder read n c) := by
  have hcompared : tokens? (column c.field c.type ++ " " ++ c.operator.text ++ " " ++
      placeholder.text n) = some (read ++ [c.operator.token, placeholder.token n]) := by
    have hoperator := tokens?_append_blank hcolumn (tokens?_operator c.operator)
    simpa using tokens?_append_blank hoperator (tokens?_placeholder placeholder n)
  rw [clause, comparisonTokens]
  by_cases hlike : c.operator = .like
  · have hescape : tokens? "ESCAPE '\\'" = some [.word "ESCAPE", .literal "\\"] := rfl
    have htext : " ESCAPE '\\'" = " " ++ "ESCAPE '\\'" := rfl
    rw [if_pos hlike, if_pos hlike, htext, ← String.append_assoc]
    exact tokens?_append_blank hcompared hescape
  · rw [if_neg hlike, if_neg hlike, String.append_empty, List.append_nil]
    exact hcompared

/-- The number of a placeholder is a sum of words. -/
theorem placeholderNumber_eq_toNat_add (first : UInt64) {offset : Nat}
    (h : offset < 0x8000000000000000) :
    placeholderNumber first offset = (first + UInt64.ofNat offset).toNat := by
  have hoffset : (UInt64.ofNat offset).toNat = offset :=
    UInt64.toNat_ofNat_of_lt' (Nat.lt_trans h (by decide))
  rw [placeholderNumber, UInt64.toNat_add, hoffset]
  split
  · next hfirst =>
      have hbelow : first.toNat < 0x8000000000000000 := UInt64.lt_iff_toNat_lt.1 hfirst
      exact (Nat.mod_eq_of_lt (by omega)).symm
  · rfl

/-- Up to the greatest word, numbers are counted on. -/
theorem placeholderNumber_of_lt {first : UInt64} {offset : Nat}
    (h : first.toNat + offset < UInt64.size) :
    placeholderNumber first offset = first.toNat + offset := by
  rw [placeholderNumber]
  split
  · rfl
  · exact Nat.mod_eq_of_lt h

theorem forall₂_tokens?_clauses {column : ColumnStyle} {read : String → FieldType → List Token}
    (hcolumn : ∀ field type, tokens? (column field type) = some (read field type))
    (placeholder : Placeholder) (first : UInt64) (offset : Nat) (comparisons : List Comparison) :
    List.Forall₂ (fun text tokens => tokens? text = some tokens)
      (clauses placeholder column first offset comparisons)
      (comparisons.mapIdx fun i c => comparisonTokens placeholder (read c.field c.type)
        (placeholderNumber first (offset + i)) c) := by
  induction comparisons generalizing offset with
  | nil => exact .nil
  | cons c rest ih =>
      have hrest := ih (offset + 1)
      simp only [Nat.add_assoc, Nat.add_comm 1] at hrest
      rw [clauses, List.mapIdx_cons]
      exact .cons (tokens?_clause (hcolumn c.field c.type) placeholder _) hrest

theorem forall₂_tokens?_counted {column : ColumnStyle} {read : String → FieldType → List Token}
    (hcolumn : ∀ field type, tokens? (column field type) = some (read field type))
    (placeholder : Placeholder) {first : UInt64} {comparisons : List Comparison}
    (hnumbers : ∀ i < comparisons.length, placeholderNumber first i = first.toNat + i) :
    List.Forall₂ (fun text tokens => tokens? text = some tokens)
      (clauses placeholder column first 0 comparisons)
      (comparisons.mapIdx fun i c =>
        comparisonTokens placeholder (read c.field c.type) (first.toNat + i) c) := by
  have hclauses := forall₂_tokens?_clauses hcolumn placeholder first 0 comparisons
  have hcounted : (comparisons.mapIdx fun i c => comparisonTokens placeholder
      (read c.field c.type) (placeholderNumber first (0 + i)) c) =
      comparisons.mapIdx fun i c =>
        comparisonTokens placeholder (read c.field c.type) (first.toNat + i) c := by
    rw [List.mapIdx_eq_mapIdx_iff]
    intro i hi
    rw [Nat.zero_add, hnumbers i hi]
  exact hcounted ▸ hclauses

/-- A rendered specification reads as the conjunction of its comparisons, if every column
reads on its own and the number of the last placeholder is a word. -/
theorem tokens?_render {column : ColumnStyle} {read : String → FieldType → List Token}
    (hcolumn : ∀ field type, tokens? (column field type) = some (read field type))
    (placeholder : Placeholder) {first : UInt64} {spec : Specification}
    (hnumbers : first.toNat + spec.comparisons.length ≤ UInt64.size) :
    tokens? (render placeholder first column spec).sql =
      some (conjunctionTokens placeholder first.toNat (fun c => read c.field c.type)
        spec.comparisons) := by
  apply tokens?_intercalate_and
  apply forall₂_tokens?_counted hcolumn placeholder
  intro i hi
  exact placeholderNumber_of_lt (by omega)

/-- The text does not depend on the values. -/
theorem clauses_eq_of_shapes (placeholder : Placeholder) (column : ColumnStyle) (first : UInt64)
    (offset : Nat) {a b : List Comparison}
    (h : a.map Comparison.shape = b.map Comparison.shape) :
    clauses placeholder column first offset a = clauses placeholder column first offset b := by
  induction a generalizing offset b with
  | nil =>
      rw [List.map_eq_nil_iff.1 h.symm]
  | cons c a ih =>
      cases b with
      | nil => cases h
      | cons c' b =>
          obtain ⟨hshape, hrest⟩ := List.cons_eq_cons.1 h
          simp only [Comparison.shape, Prod.mk.injEq] at hshape
          obtain ⟨hfield, htype, hoperator⟩ := hshape
          have hclause (n : Nat) : clause placeholder column n c = clause placeholder column n c' := by
            rw [clause, clause, hfield, htype, hoperator]
          rw [clauses, clauses, hclause, ih (offset + 1) hrest]

/-! ## Specifications -/

end Sql

end EntityQuery
