import EntityQuery.Proofs.Compilation
import EntityQuery.Proofs.FieldOrder
import EntityQuery.Proofs.Sql.Like
/-!
# What a specification selects

A comparison of SQL is true, false or unknown, and it is unknown where its column is
missing or null. A row is selected by a specification if every comparison is true.

The predicate of a compiled query holds of exactly the rows that its specification
selects. Both forms consist of the same conditions, so this is a matter of one condition
at a time: the operators of order and equality follow the order of the values, and the
textual ones search for the text that the pattern of `LIKE` escapes.
-/

namespace EntityQuery

/-- The values of the fields of one entity, as far as it has them. -/
abbrev Row := String → Option FieldValue

/-- The row gives every declared field nothing, null, or a value of the field's type that
is a number if it is a double. -/
def Descriptor.Describes (d : Descriptor) (row : Row) : Prop :=
  ∀ field type value, d.type? field = some type → row field = some value →
    type.accepts value = true ∧ value.isNaN = false

/-- Whether a comparison other than `LIKE` is true of values in this order. -/
def SqlOperator.accepts (op : SqlOperator) (order : Ordering) : Bool :=
  match op with
  | equal => order == .eq
  | notEqual => order != .eq
  | greater => order == .gt
  | greaterOrEqual => order != .lt
  | less => order == .lt
  | lessOrEqual => order != .gt
  | like => false

/-- The truth of a comparison of two values. Null makes it unknown. -/
def SqlOperator.truth (op : SqlOperator) (actual expected : FieldValue) : Option Bool :=
  match op with
  | like =>
    match actual, expected with
    | .text text, .text pattern => some (Sql.like pattern text)
    | _, _ => none
  | _ => (actual.order? expected).map op.accepts

/-- The truth of a comparison in a row. A missing column makes it unknown. -/
def Comparison.truth (row : Row) (c : Comparison) : Option Bool :=
  (row c.field).bind fun actual => c.operator.truth actual c.value

/-- The comparisons are all true; where there is no specification, every row is selected. -/
def Specification.Selects (spec : Option Specification) (row : Row) : Prop :=
  ∀ s, spec = some s → ∀ c ∈ s.comparisons, c.truth row = some true

section Values

variable {type : FieldType} {actual expected : FieldValue}

@[simp] theorem SqlOperator.truth_null (op : SqlOperator) (expected : FieldValue) :
    op.truth .null expected = none := by
  have horder : FieldValue.null.order? expected = none := by cases expected <;> rfl
  cases op <;> simp [truth, horder]

/-- On values that are not null, the SQL comparison of a condition is known, and it is
true exactly if the operator of the condition holds. -/
theorem Condition.truth_ofCondition {c : Condition} (hop : c.operator.supports c.type = true)
    (ha : c.type.accepts actual = true) (hb : c.type.accepts c.value = true)
    (hna : actual.isNaN = false) (hnb : c.value.isNaN = false)
    (hanull : actual ≠ .null) (hbnull : c.value ≠ .null) :
    (Comparison.ofCondition c).operator.truth actual (Comparison.ofCondition c).value =
      some (c.operator.holds actual c.value) := by
  obtain ⟨field, type, op, expected⟩ := c
  simp only at hop ha hb hnb hbnull
  cases htextual : op.isTextual with
  | false =>
      obtain ⟨order, horder⟩ := FieldValue.exists_order? ha hb hna hnb hanull hbnull
      have hcompare : actual.compare? expected = some order :=
        (FieldValue.compare?_eq_order? ha hb hna hnb).trans horder
      cases op <;> cases htextual <;>
        simp [Comparison.ofCondition, SqlOperator.truth, horder, Operator.holds,
          Operator.isTextual, hcompare, SqlOperator.accepts]
  | true =>
      have htype : type.isTextual = true := by
        cases op <;> cases htextual <;> exact hop
      obtain ⟨text, rfl⟩ := FieldValue.exists_text htype ha hanull
      obtain ⟨part, rfl⟩ := FieldValue.exists_text htype hb hbnull
      cases op <;> cases htextual
      case contains.refl => exact congrArg some (Sql.like_contains part text)
      case startsWith.refl => exact congrArg some (Sql.like_startsWith part text)
      case endsWith.refl => exact congrArg some (Sql.like_endsWith part text)

end Values

variable {d : Descriptor} {row : Row}

theorem Condition.ReadFrom.eval_iff {f : Filter} {c : Condition} (hc : c.ReadFrom d f)
    (hrow : d.Describes row) :
    (Predicate.ofCondition c).eval row = true ↔
      (Comparison.ofCondition c).truth row = some true := by
  have hfield : (Comparison.ofCondition c).field = c.field := rfl
  rw [Comparison.truth, hfield, Predicate.ofCondition, Predicate.eval]
  cases hvalue : row c.field with
  | none => simp
  | some actual =>
      have hdeclared : d.type? c.field = some c.type := hc.field ▸ hc.declared
      obtain ⟨haccepts, hnumber⟩ := hrow _ _ _ hdeclared hvalue
      obtain ⟨hexpected, hexpectedNumber⟩ := FieldValue.ofRaw?_some hc.value
      by_cases hnull : actual = .null
      · subst hnull
        simp [FieldValue.isNull]
      · have hop : c.operator.supports c.type = true := hc.operator ▸ hc.supported
        have hknown := truth_ofCondition hop haccepts (FieldValue.accepts_of_ofRaw? hc.value)
          hnumber hexpectedNumber hnull hexpected
        have hvalued : actual.isNull = false := by cases actual <;> simp_all [FieldValue.isNull]
        rw [Option.bind_some, hknown]
        simp [hvalued]

theorem Specification.selects_iff (spec : Option Specification) (row : Row) :
    Selects spec row ↔ ∀ c ∈ toComparisons spec, c.truth row = some true := by
  cases spec with
  | none => simp [Selects, toComparisons]
  | some s => simp [Selects, toComparisons]

/-- Conditions that come from filters hold in a row together exactly if their SQL
comparisons are all true there. -/
theorem Condition.eval_forall_iff {filters : List Filter} {conditions : List Condition}
    (h : List.Forall₂ (fun f c => Condition.ReadFrom d f c) filters conditions)
    (hrow : d.Describes row) :
    (∀ p ∈ conditions.map Predicate.ofCondition, p.eval row = true) ↔
      ∀ c ∈ conditions.map Comparison.ofCondition, c.truth row = some true := by
  induction h with
  | nil => simp
  | cons hread _ ih =>
      rw [List.map_cons, List.map_cons, List.forall_mem_cons, List.forall_mem_cons, ih,
        hread.eval_iff hrow]

/-- The two forms of a compiled query agree: in every row of declared values the predicate
holds exactly if the specification selects the row. -/
theorem CompiledQuery.eval_iff_selects {filters : Option (List Filter)} {q : CompiledQuery}
    (hq : compile d filters = .ok q) (hrow : d.Describes row) :
    q.predicate.eval row = true ↔ Specification.Selects q.specification row := by
  obtain ⟨conditions, rfl, hread⟩ := eq_ofConditions_of_compile hq
  rw [ofConditions, Predicate.eval_flat_iff, Specification.selects_iff,
    Specification.toComparisons_ofComparisons]
  exact Condition.eval_forall_iff hread hrow

/-- Searched wildcards, escape characters and quotes stand for themselves. -/
theorem CompiledQuery.selects_searched_wildcards :
    let d : Descriptor := ⟨"note", "id", [("title", .text), ("stars", .integer)], by decide⟩
    let filters : List Filter :=
      [⟨"title", "100%_\\'", .contains⟩, ⟨"stars", "-3", .greaterOrEqual⟩]
    let row : Row := fun field =>
      if field = "title" then some (.text "é 100%_\\'s") else
      if field = "stars" then some (.integer 5) else none
    ∃ q, compile d filters = .ok q ∧ d.Describes row ∧
      Specification.Selects q.specification row := by
  intro d filters row
  have hrow : d.Describes row := by
    intro field type value htype hvalue
    simp only [row] at hvalue
    split at hvalue
    · next hfield =>
        subst hfield
        cases htype
        cases hvalue
        exact ⟨rfl, rfl⟩
    · split at hvalue
      · next hfield =>
          subst hfield
          cases htype
          cases hvalue
          exact ⟨rfl, rfl⟩
      · cases hvalue
  have hq : compile d filters = .ok (ofConditions
      [⟨"title", .text, .contains, .text "100%_\\'"⟩,
        ⟨"stars", .integer, .greaterOrEqual, .integer (-3)⟩]) := rfl
  exact ⟨_, hq, hrow, (eval_iff_selects hq hrow).1 (by decide)⟩

end EntityQuery
