import EntityQuery.Entity.Codec
import EntityQuery.Entity.Directory
import EntityQuery.Proofs.Compilation
import EntityQuery.Proofs.FieldOrder
import EntityQuery.Proofs.Page
import EntityQuery.Proofs.Sql.Rendering
import EntityQuery.Store.Relational
/-!
# What a listing binds

The two statements of a listing, cut into tokens, with the values of their placeholders.
The restriction is one conjunction whose first member is the comparison of the entity type,
so the numbers of its placeholders count the members. The page goes on where the
restriction stops. The order has no placeholder, whatever the names of its fields are.
-/

namespace EntityQuery

theorem Specification.comparisons_ne_nil (spec : Specification) : spec.comparisons ≠ [] := by
  induction spec with
  | compare c => simp [comparisons]
  | and left right ihLeft _ => exact List.append_ne_nil_of_left_ne_nil ihLeft _

namespace Sql

/-- The numbers of the placeholders, in the order of the text. -/
def placeholders (tokens : List Token) : List Nat :=
  tokens.filterMap Token.number?

/-- The SQL type that an expression is cast to. Without a cast it is a text. -/
def castName (tokens : List Token) : String :=
  match (tokens.dropWhile (· ≠ .symbol "::")).filterMap Token.word? with
  | [] => "text"
  | words => " ".intercalate words

@[simp] theorem placeholders_append (a b : List Token) :
    placeholders (a ++ b) = placeholders a ++ placeholders b :=
  List.filterMap_append

theorem placeholders_intercalate {between : List Token} (h : placeholders between = [])
    (read : List (List Token)) :
    placeholders (between.intercalate read) = read.flatMap placeholders := by
  induction read with
  | nil => rfl
  | cons first rest ih =>
      cases rest with
      | nil => simp
      | cons second rest =>
          rw [List.intercalate_cons_cons, placeholders_append, placeholders_append, h, ih]
          simp

theorem placeholders_comparisonTokens (column : List Token) (n : Nat) (c : Comparison) :
    placeholders (comparisonTokens .dollar column n c) = placeholders column ++ [n] := by
  obtain ⟨field, type, op, value⟩ := c
  cases op <;> simp [comparisonTokens] <;> rfl

theorem placeholders_comparisons {column : Comparison → List Token}
    (hcolumn : ∀ c, placeholders (column c) = []) (first : Nat) (comparisons : List Comparison) :
    (comparisons.mapIdx fun i c => comparisonTokens .dollar (column c) (first + i) c).flatMap
      placeholders = List.range' first comparisons.length := by
  induction comparisons generalizing first with
  | nil => rfl
  | cons c rest ih =>
      have hrest := ih (first + 1)
      simp only [Nat.add_assoc, Nat.add_comm 1] at hrest
      rw [List.mapIdx_cons, List.flatMap_cons, hrest, placeholders_comparisonTokens, hcolumn]
      rfl

end Sql

namespace Relational

open Sql

/-! ## The parts of a statement -/

def restrictionTokens (comparisons : List Comparison) : List Token :=
  [Token.word "AND"].intercalate
    ([.word "entity_type", .symbol "=", .numbered 1] ::
      comparisons.mapIdx fun i c =>
        comparisonTokens .dollar (columnTokens c.field c.type) (2 + i) c)

def NullsPlace.tokens : NullsPlace → List Token
  | first => [.word "NULLS", .word "FIRST"]
  | last => [.word "NULLS", .word "LAST"]

def OrderTerm.tokens : OrderTerm → List Token
  | field name type direction =>
    columnTokens name type ++
      (if isBytewise type then [.word "COLLATE", .identifier "C"] else []) ++
      .word direction.name :: (nullsPlace direction).tokens
  | identifier => [.word "id", .word "ASC"]

def orderTokens (terms : List OrderTerm) : List Token :=
  [Token.symbol ","].intercalate (terms.map OrderTerm.tokens)

theorem placeholders_columnTokens (field : String) (type : FieldType) :
    placeholders (columnTokens field type) = [] := by
  cases type <;> rfl

theorem placeholders_restrictionTokens (comparisons : List Comparison) :
    placeholders (restrictionTokens comparisons) = List.range' 1 (comparisons.length + 1) := by
  have hcomparisons := placeholders_comparisons
    (fun c : Comparison => placeholders_columnTokens c.field c.type) 2 comparisons
  rw [restrictionTokens, placeholders_intercalate rfl, List.flatMap_cons, hcomparisons]
  rfl

theorem placeholders_orderTokens (terms : List OrderTerm) :
    placeholders (orderTokens terms) = [] := by
  rw [orderTokens, placeholders_intercalate rfl, List.flatMap_eq_nil_iff]
  intro tokens htokens
  obtain ⟨term, -, rfl⟩ := List.mem_map.1 htokens
  cases term with
  | identifier => rfl
  | field name type direction =>
      rw [OrderTerm.tokens, placeholders_append, placeholders_append, placeholders_columnTokens]
      cases hbytewise : isBytewise type <;> cases direction <;> rfl

/-- The restriction is one conjunction of the entity type and the comparisons. -/
theorem whereClause_eq (specification : Option Specification) :
    whereClause specification =
      ⟨" AND ".intercalate ("entity_type = $1" ::
          clauses .dollar documentColumn 2 0 (Specification.toComparisons specification)),
        (Specification.toComparisons specification).map Comparison.value⟩ := by
  cases specification with
  | none => rfl
  | some spec =>
      have hclauses : clauses .dollar documentColumn 2 0 spec.comparisons ≠ [] := by
        obtain ⟨c, rest, hcons⟩ := List.exists_cons_of_ne_nil spec.comparisons_ne_nil
        simp [hcons, clauses]
      rw [Specification.toComparisons, String.intercalate_cons_of_ne_nil hclauses]
      rfl

theorem tokens?_whereClause (specification : Option Specification) :
    tokens? (whereClause specification).sql =
      some (restrictionTokens (Specification.toComparisons specification)) := by
  rw [whereClause_eq]
  apply tokens?_intercalate_and
  refine .cons rfl (forall₂_tokens?_counted tokens?_documentColumn .dollar ?_)
  intro i _
  exact if_pos (by decide)

theorem tokens?_orderTerm (term : OrderTerm) : tokens? term.text = some term.tokens := by
  cases term with
  | identifier => rfl
  | field name type direction =>
      have hcolumn := tokens?_documentColumn name type
      have hcollated : tokens? (documentColumn name type ++
          if isBytewise type then " COLLATE \"C\"" else "") =
          some (columnTokens name type ++
            if isBytewise type then [.word "COLLATE", .identifier "C"] else []) := by
        cases isBytewise type with
        | false => simpa using hcolumn
        | true =>
            have hcollate : tokens? "COLLATE \"C\"" = some [.word "COLLATE", .identifier "C"] := rfl
            have htext : " COLLATE \"C\"" = " " ++ "COLLATE \"C\"" := rfl
            rw [if_pos rfl, if_pos rfl, htext, ← String.append_assoc]
            exact tokens?_append_blank hcolumn hcollate
      have hdirection : tokens? direction.name = some [.word direction.name] := by
        cases direction <;> rfl
      have hnulls : tokens? (nullsPlace direction).text = some (nullsPlace direction).tokens := by
        cases direction <;> rfl
      rw [OrderTerm.text, OrderTerm.tokens]
      simpa using tokens?_append_blank (tokens?_append_blank hcollated hdirection) hnulls

theorem tokens?_orderText (terms : List OrderTerm) :
    tokens? (orderText terms) = some (orderTokens terms) := by
  refine tokens?_intercalate tokens?_append_comma ?_
  rw [List.forall₂_map_left_iff, List.forall₂_map_right_iff, List.forall₂_same]
  intro term _
  exact tokens?_orderTerm term

/-! ## Kinds of values -/

/-- The SQL type that a value is bound as. -/
def Param.typeName : Param → String
  | bool _ => "boolean"
  | int8 _ => "bigint"
  | float8 _ => "double precision"
  | text _ | null => "text"
  | date _ => "date"
  | timestamptz _ => "timestamptz"
  | uuid _ => "uuid"
  | jsonb _ => "jsonb"

theorem castName_columnTokens (field : String) (type : FieldType) :
    castName (columnTokens field type) =
      match castWords type with
      | [] => "text"
      | words => " ".intercalate words := by
  cases type <;>
    simp [castName, columnTokens, columnPrefix, columnSuffix, castTokens, castWords] <;> rfl

theorem typeName_ofFieldValue {type : FieldType} {value : FieldValue}
    (haccepts : type.accepts value = true) (hvalue : value ≠ .null) (field : String) :
    (Param.ofFieldValue value).typeName = castName (columnTokens field type) := by
  rw [castName_columnTokens]
  cases value with
  | null => exact absurd rfl hvalue
  | _ => cases type <;> first | rfl | cases haccepts

/-- What a condition binds fits its column, and a search binds a pattern to a text that is
not cast. -/
theorem typeName_of_readFrom {d : Descriptor} {f : Filter} {c : Condition}
    (h : c.ReadFrom d f) :
    (Param.ofFieldValue (Comparison.ofCondition c).value).typeName =
        castName (columnTokens c.field c.type) ∧
      ((Comparison.ofCondition c).operator = .like →
        .symbol "::" ∉ columnTokens c.field c.type ∧
        ∃ pattern, Param.ofFieldValue (Comparison.ofCondition c).value = .text pattern) := by
  have hsupported : c.operator.supports c.type = true := h.operator ▸ h.supported
  have haccepts := FieldValue.accepts_of_ofRaw? h.value
  have hvalue := (FieldValue.ofRaw?_some h.value).1
  obtain ⟨field, type, op, value⟩ := c
  cases htextual : op.isTextual with
  | false =>
      obtain ⟨hsame, hunlike⟩ : (Comparison.ofCondition ⟨field, type, op, value⟩).value = value ∧
          (Comparison.ofCondition ⟨field, type, op, value⟩).operator ≠ .like := by
        cases op <;> cases htextual <;> simp [Comparison.ofCondition]
      rw [hsame]
      exact ⟨typeName_ofFieldValue haccepts hvalue field, fun hlike => absurd hlike hunlike⟩
  | true =>
      have htype : type = .text := by
        cases op <;> cases htextual <;> cases type <;> first | rfl | cases hsupported
      obtain ⟨pattern, hpattern⟩ : ∃ pattern,
          (Comparison.ofCondition ⟨field, type, op, value⟩).value = .text pattern := by
        cases op <;> cases htextual <;> exact ⟨_, rfl⟩
      subst htype
      rw [hpattern]
      refine ⟨rfl, fun _ => ⟨?_, pattern, rfl⟩⟩
      simp [columnTokens, columnPrefix, columnSuffix, castTokens, castWords]

/-! ## The statements of a listing -/

/-- What a statement sends: its tokens, the values of its placeholders `$1`, `$2`, … in the
order of the text, and these values in the order of their numbers. -/
structure Statement.Binds (s : Statement) (tokens : List Token) (values : List Param) : Prop where
  reads : tokens? s.sql = some tokens
  numbered : placeholders tokens = List.range' 1 values.length
  bound : s.params = values

/-- What the statement of a page reads as. -/
def selectTokens (comparisons : List Comparison) (order : List OrderTerm) : List Token :=
  [.word "SELECT", .word "data", .word "FROM", .word "entities", .word "WHERE"] ++
    restrictionTokens comparisons ++ [.word "ORDER", .word "BY"] ++ orderTokens order ++
    [.word "LIMIT", .numbered (comparisons.length + 2), .word "OFFSET",
      .numbered (comparisons.length + 3)]

/-- What the statement of the count reads as. -/
def countTokens (comparisons : List Comparison) : List Token :=
  [.word "SELECT", .word "COUNT", .symbol "(", .symbol "*", .symbol ")", .word "FROM",
    .word "entities", .word "WHERE"] ++ restrictionTokens comparisons

section

variable {α : Type} [Resource α]

theorem whereParams_whereClause (specification : Option Specification) :
    whereParams α (whereClause specification) =
      .text (Resource.singular α) ::
        (Specification.toComparisons specification).map fun c => Param.ofFieldValue c.value := by
  rw [whereClause_eq, whereParams, List.map_map]
  rfl

theorem sql_count (filter : Fragment) :
    (count α filter).sql = "SELECT COUNT(*) FROM entities WHERE " ++ filter.sql := rfl

theorem sql_select (filter : Fragment) (order : List OrderTerm) (page : PageSpec) :
    (select α filter order page).sql =
      "SELECT data FROM entities WHERE " ++ filter.sql ++ " ORDER BY " ++ orderText order ++
        " LIMIT " ++ Placeholder.dollar.text (filter.params.length + 2) ++
        " OFFSET " ++ Placeholder.dollar.text (filter.params.length + 3) := rfl

/-- The statement of a page begins with the restriction. -/
theorem exists_sql_select (filter : Fragment) (order : List OrderTerm) (page : PageSpec) :
    ∃ rest, (select α filter order page).sql =
      "SELECT data FROM entities WHERE " ++ filter.sql ++ (" ORDER BY " ++ rest) := by
  refine ⟨orderText order ++ " LIMIT " ++ Placeholder.dollar.text (filter.params.length + 2) ++
    " OFFSET " ++ Placeholder.dollar.text (filter.params.length + 3), ?_⟩
  rw [sql_select]
  simp only [String.append_assoc]

@[simp] theorem params_count (filter : Fragment) :
    (count α filter).params = whereParams α filter := rfl

@[simp] theorem params_select (filter : Fragment) (order : List OrderTerm) (page : PageSpec) :
    (select α filter order page).params =
      whereParams α filter ++ [.int8 page.limit, .int8 page.skip] := rfl

theorem binds_count (specification : Option Specification) :
    (count α (whereClause specification)).Binds
      (countTokens (Specification.toComparisons specification))
      (whereParams α (whereClause specification)) where
  reads := by
    have hkeywords : tokens? "SELECT COUNT(*) FROM entities WHERE" =
        some [.word "SELECT", .word "COUNT", .symbol "(", .symbol "*", .symbol ")", .word "FROM",
          .word "entities", .word "WHERE"] := rfl
    have htext : "SELECT COUNT(*) FROM entities WHERE " =
        "SELECT COUNT(*) FROM entities WHERE" ++ " " := by decide
    rw [sql_count, htext]
    exact tokens?_append_blank hkeywords (tokens?_whereClause specification)
  numbered := by
    rw [countTokens, placeholders_append, placeholders_restrictionTokens, whereParams_whereClause]
    simp
    rfl
  bound := params_count ..

theorem binds_select (specification : Option Specification) (order : List OrderTerm)
    (page : PageSpec) :
    (select α (whereClause specification) order page).Binds
      (selectTokens (Specification.toComparisons specification) order)
      (whereParams α (whereClause specification) ++ [.int8 page.limit, .int8 page.skip]) where
  reads := by
    have hkeywords : tokens? "SELECT data FROM entities WHERE" =
        some [.word "SELECT", .word "data", .word "FROM", .word "entities", .word "WHERE"] := rfl
    have horderBy : tokens? "ORDER BY" = some [.word "ORDER", .word "BY"] := rfl
    have hlimit : tokens? "LIMIT" = some [.word "LIMIT"] := rfl
    have hoffset : tokens? "OFFSET" = some [.word "OFFSET"] := rfl
    have hkeywordsText : "SELECT data FROM entities WHERE " =
        "SELECT data FROM entities WHERE" ++ " " := by decide
    have horderByText : " ORDER BY " = " " ++ "ORDER BY" ++ " " := by decide
    have hlimitText : " LIMIT " = " " ++ "LIMIT" ++ " " := by decide
    have hoffsetText : " OFFSET " = " " ++ "OFFSET" ++ " " := by decide
    have hcount : (whereClause specification).params.length =
        (Specification.toComparisons specification).length := by
      rw [whereClause_eq, List.length_map]
    have hrestricted := tokens?_append_blank hkeywords (tokens?_whereClause specification)
    have hordered := tokens?_append_between hrestricted horderBy (tokens?_orderText order)
    have hlimited := tokens?_append_between hordered hlimit (tokens?_placeholder .dollar
      ((Specification.toComparisons specification).length + 2))
    have hread := tokens?_append_between hlimited hoffset (tokens?_placeholder .dollar
      ((Specification.toComparisons specification).length + 3))
    rw [sql_select, hkeywordsText, horderByText, hlimitText, hoffsetText, hcount, hread,
      selectTokens]
    simp [Placeholder.token]
  numbered := by
    have hselect : placeholders [.word "SELECT", .word "data", .word "FROM", .word "entities",
      .word "WHERE"] = [] := rfl
    have horderBy : placeholders [.word "ORDER", .word "BY"] = [] := rfl
    have hpage : ∀ n, placeholders [.word "LIMIT", .numbered (n + 2), .word "OFFSET",
      .numbered (n + 3)] = [n + 2, n + 3] := fun _ => rfl
    rw [selectTokens, placeholders_append, placeholders_append, placeholders_append,
      placeholders_append, hselect, placeholders_restrictionTokens, horderBy,
      placeholders_orderTokens, hpage, whereParams_whereClause]
    simp [List.range'_concat, Nat.add_comm 1]
  bound := params_select ..

theorem orderTerm_of_declared {d : Descriptor} {key : SortKey} {type : FieldType}
    (h : d.type? key.field = some type) :
    orderTerm d key = .ok (.field key.field type key.direction) := by
  simp [orderTerm, Descriptor.resolve, h, bind, Except.bind, pure, Except.pure]

/-- Declared sort fields have an order: one term for each, and the identifier. -/
theorem orderTerms_of_declared {d : Descriptor} {keys : List SortKey}
    (h : ∀ key ∈ keys, d.contains key.field = true) :
    orderTerms d keys = .ok ((keys.map fun key =>
      .field key.field ((d.type? key.field).getD .text) key.direction) ++ [.identifier]) := by
  have hterms : keys.mapM (orderTerm d) = .ok (keys.map fun key =>
      .field key.field ((d.type? key.field).getD .text) key.direction) := by
    induction keys with
    | nil => rfl
    | cons key rest ih =>
        have hrest := ih fun key' hkey' => h key' (List.mem_cons_of_mem key hkey')
        obtain ⟨type, htype⟩ : ∃ type, d.type? key.field = some type :=
          Option.isSome_iff_exists.1 (h key List.mem_cons_self)
        rw [List.mapM_cons, hrest, orderTerm_of_declared htype, List.map_cons, htype]
        rfl
  rw [orderTerms, hterms]
  rfl

/-- A listing with declared sort fields sends the page and, if that is not refused, the
count. -/
theorem sent_execute {q : CompiledQuery} {page : PageSpec} {order : List OrderTerm}
    (hsort : ∀ key ∈ page.keys, (Resource.descriptor α).contains key.field = true)
    (horder : orderTerms (Resource.descriptor α) page.keys = .ok order)
    (server : Statement → Reply) :
    ((execute q page : Session (Page α)).run (.up server)).2 =
      select α (whereClause q.specification) order page ::
        match server (select α (whereClause q.specification) order page) with
        | .refused => []
        | .rows _ => [count α (whereClause q.specification)] := by
  have hstatements : statements α q page = .ok (select α (whereClause q.specification) order page,
      count α (whereClause q.specification)) := by
    simp [statements, PageSpec.validateSort_of_declared hsort, horder, bind, Except.bind, pure,
      Except.pure]
  rw [execute, hstatements, Dialogue.run]
  cases server (select α (whereClause q.specification) order page) with
  | refused => rfl
  | rows cells =>
      simp only [Dialogue.run]
      cases server (count α (whereClause q.specification)) <;> rfl

/-- A listing sends the statement of the page and then that of the count. The placeholders of
the page are `$1`, `$2`, … up to the number of filters and three, in this order, and they
stand for the name of the entity type, the values of the filters in their order, the limit and
the offset. The count has the same restriction and the same values of it. Each value fits the
column that it is compared with. -/
theorem execute_binds_in_order {d : Descriptor} {filters : Option (List Filter)}
    {q : CompiledQuery} {page : PageSpec} (hq : CompiledQuery.compile d filters = .ok q)
    (hsort : ∀ key ∈ page.keys, (Resource.descriptor α).contains key.field = true) :
    ∃ (conditions : List Condition) (order : List OrderTerm) (selected counted : Statement),
      let comparisons := conditions.map Comparison.ofCondition
      let values : List Param :=
        .text (Resource.singular α) :: comparisons.map fun c => .ofFieldValue c.value
      List.Forall₂ (fun f c => Condition.ReadFrom d f c) (filters.getD []) conditions ∧
      (∀ server, ((execute q page : Session (Page α)).run (.up server)).2 =
        selected :: match server selected with
          | .refused => []
          | .rows _ => [counted]) ∧
      selected.Binds (selectTokens comparisons order)
        (values ++ [.int8 page.limit, .int8 page.skip]) ∧
      counted.Binds (countTokens comparisons) values ∧
      (∃ restriction rest,
        selected.sql =
          "SELECT data FROM entities WHERE " ++ restriction ++ (" ORDER BY " ++ rest) ∧
        counted.sql = "SELECT COUNT(*) FROM entities WHERE " ++ restriction ∧
        tokens? restriction = some (restrictionTokens comparisons)) ∧
      ∀ c ∈ comparisons,
        (Param.ofFieldValue c.value).typeName = castName (columnTokens c.field c.type) ∧
        (c.operator = .like → .symbol "::" ∉ columnTokens c.field c.type ∧
          ∃ pattern, Param.ofFieldValue c.value = .text pattern) := by
  obtain ⟨conditions, rfl, hread⟩ := CompiledQuery.eq_ofConditions_of_compile hq
  obtain ⟨order, horder⟩ : ∃ order, orderTerms (Resource.descriptor α) page.keys = .ok order :=
    ⟨_, orderTerms_of_declared hsort⟩
  have hcomparisons :
      Specification.toComparisons (CompiledQuery.ofConditions conditions).specification =
        conditions.map Comparison.ofCondition :=
    Specification.toComparisons_ofComparisons _
  have hselected := binds_select (α := α) (CompiledQuery.ofConditions conditions).specification
    order page
  have hcounted := binds_count (α := α) (CompiledQuery.ofConditions conditions).specification
  have hrestriction := tokens?_whereClause (CompiledQuery.ofConditions conditions).specification
  rw [whereParams_whereClause, hcomparisons] at hselected hcounted
  rw [hcomparisons] at hrestriction
  obtain ⟨rest, hrest⟩ := exists_sql_select (α := α)
    (whereClause (CompiledQuery.ofConditions conditions).specification) order page
  refine ⟨conditions, order, _, _, hread, sent_execute hsort horder, hselected, hcounted,
    ⟨_, rest, hrest, sql_count _, hrestriction⟩, ?_⟩
  intro c hc
  obtain ⟨condition, hcondition, rfl⟩ := List.mem_map.1 hc
  obtain ⟨f, _, hf⟩ := (Condition.mem_iff_of_forall₂ hread).1 hcondition
  exact typeName_of_readFrom hf

/-- A name that looks like a placeholder is searched in people, whose heights and birthdays
make the order. -/
theorem execute_binds_people :
    let filters : List Filter := [⟨"name", "$1", .contains⟩, ⟨"children", "3", .greaterOrEqual⟩]
    let page : PageSpec := ⟨2, 10, [⟨"height", .descending⟩, ⟨"birthday", .descending⟩]⟩
    ∃ q selected counted,
      CompiledQuery.compile Directory.person.descriptor (some filters) = .ok q ∧
      (∀ server, ((execute q page : Session (Page (Entity Directory.person))).run
          (.up server)).2 =
        selected :: match server selected with
          | .refused => []
          | .rows _ => [counted]) ∧
      selected.params =
        [.text "person", .text "%$1%", .int8 3, .int8 page.limit, .int8 page.skip] ∧
      counted.params = [.text "person", .text "%$1%", .int8 3] := by
  intro filters page
  let read : List Condition :=
    [⟨"name", .text, .contains, .text "$1"⟩, ⟨"children", .integer, .greaterOrEqual, .integer 3⟩]
  have hread : List.Forall₂ (fun f c => Condition.ReadFrom Directory.person.descriptor f c)
      filters read :=
    .cons ⟨rfl, rfl, rfl, rfl, rfl⟩ (.cons ⟨rfl, rfl, rfl, rfl, rfl⟩ .nil)
  have hq : CompiledQuery.compile Directory.person.descriptor (some filters) =
      .ok (.ofConditions read) :=
    CompiledQuery.compile_of_forall₂ (by decide) hread
  have hsort : ∀ key ∈ page.keys,
      (Resource.descriptor (Entity Directory.person)).contains key.field = true := by decide
  obtain ⟨conditions, order, selected, counted, hconditions, hsent, hselected, hcounted, -⟩ :=
    execute_binds_in_order hq hsort
  obtain rfl : conditions = read :=
    (Condition.ReadFrom.rightUnique Directory.person.descriptor).forall₂ hconditions hread
  exact ⟨_, selected, counted, hq, hsent, hselected.bound, hcounted.bound⟩

end

end Relational

end EntityQuery
