import EntityQuery.Proofs.Predicate
import EntityQuery.Proofs.Sql.Selection
/-!
# Joined lists of filters

What becomes of two lists of filters one after the other is told by what becomes of each of
them. If one is refused, so are both together, with the errors of the first before those of
the second. Otherwise the predicate is the conjunction of the two predicates, whichever of
the shapes of a flat conjunction these have, and the comparisons stand side by side.

The conditions of a list are the ones that its filters stand for. So the rows that a query
selects depend only on which filters there are, and with more filters there are no more rows.
-/

namespace EntityQuery

variable {d : Descriptor} {filters : List Filter} {conditions : List Condition}

namespace Condition

/-- The errors that a list of filters is refused with. An accepted list has none. -/
def errors (result : Except ValidationError (List Condition)) : List FilterError :=
  match result with
  | .error (.fields errors) => errors
  | _ => []

theorem errors_ofFilters (d : Descriptor) (filters : List Filter) :
    errors (ofFilters d filters) = filters.filterMap (Filter.fault? d) := by
  by_cases hfaults : filters.filterMap (Filter.fault? d) = []
  · obtain ⟨conditions, hresult, _⟩ := ofFilters_of_sound hfaults
    rw [hresult, hfaults]
    rfl
  · rw [ofFilters_of_faulty hfaults]
    rfl

theorem exists_error_iff (d : Descriptor) (filters : List Filter) :
    (∃ e, ofFilters d filters = .error e) ↔ filters.filterMap (Filter.fault? d) ≠ [] := by
  constructor
  · rintro ⟨e, herror⟩ hfaults
    obtain ⟨conditions, hresult, _⟩ := ofFilters_of_sound hfaults
    rw [hresult] at herror
    cases herror
  · intro hfaults
    exact ⟨_, ofFilters_of_faulty hfaults⟩

end Condition

theorem Predicate.flat_and_flat (conditions conditions' : List Condition) :
    (Predicate.flat (conditions.map .ofCondition)).and (.flat (conditions'.map .ofCondition)) =
      .flat ((conditions ++ conditions').map .ofCondition) := by
  induction conditions' using List.reverseRecOn with
  | nil => rw [List.map_nil, flat, and_always, List.append_nil]
  | append_singleton rest c ih =>
      rw [← flat_and_ofCondition, ← and_assoc, ih, flat_and_ofCondition, List.append_assoc]

namespace CompiledQuery

/-- A list without faults compiles to the query of the conditions that its filters stand for,
and no other list compiles. -/
theorem compile_eq_ok_iff {q : CompiledQuery} :
    compile d (some filters) = .ok q ↔ filters.filterMap (Filter.fault? d) = [] ∧
      ∃ conditions, List.Forall₂ (fun f c => Condition.ReadFrom d f c) filters conditions ∧
        q = ofConditions conditions := by
  obtain ⟨hfaults, hrefused⟩ | ⟨hfaults, conditions, _, hread, hcompiled⟩ :=
    compile_cases d (some filters)
  · rw [hrefused]
    constructor
    · intro h
      cases h
    · rintro ⟨hnone, _⟩
      exact absurd hnone hfaults
  · rw [hcompiled, Except.ok.injEq]
    constructor
    · rintro rfl
      exact ⟨hfaults, conditions, hread, rfl⟩
    · rintro ⟨_, conditions', hread', rfl⟩
      rw [(Condition.ReadFrom.rightUnique d).forall₂ hread hread']

theorem eval_ofConditions_iff {row : Row} :
    (ofConditions conditions).predicate.eval row = true ↔
      ∀ c ∈ conditions, (Predicate.ofCondition c).eval row = true := by
  rw [ofConditions, Predicate.eval_flat_iff, List.forall_mem_map]

/-- The rows that the specification of a query selects, by its conditions. -/
theorem selects_ofConditions_iff {row : Row} :
    Specification.Selects (ofConditions conditions).specification row ↔
      ∀ c ∈ conditions, (Comparison.ofCondition c).truth row = some true := by
  rw [ofConditions, Specification.selects_iff, Specification.toComparisons_ofComparisons,
    List.forall_mem_map]

/-- The query selects a row in the first form only if the other query does, and likewise in the
second form. -/
def SelectsWithin (q q' : CompiledQuery) : Prop :=
  ∀ row : Row, (q.predicate.eval row = true → q'.predicate.eval row = true) ∧
    (Specification.Selects q.specification row → Specification.Selects q'.specification row)

/-- With more filters a query selects no more rows. -/
theorem selectsWithin_of_subset {filters' : List Filter} {q q' : CompiledQuery}
    (hq : compile d (some filters) = .ok q) (hq' : compile d (some filters') = .ok q')
    (h : ∀ f ∈ filters', f ∈ filters) : SelectsWithin q q' := by
  obtain ⟨_, conditions, hread, rfl⟩ := compile_eq_ok_iff.1 hq
  obtain ⟨_, conditions', hread', rfl⟩ := compile_eq_ok_iff.1 hq'
  have hsubset : ∀ c ∈ conditions', c ∈ conditions := by
    intro c hc
    obtain ⟨f, hf, hfc⟩ := (Condition.mem_iff_of_forall₂ hread').1 hc
    exact (Condition.mem_iff_of_forall₂ hread).2 ⟨f, h f hf, hfc⟩
  intro row
  rw [eval_ofConditions_iff, eval_ofConditions_iff, selects_ofConditions_iff,
    selects_ofConditions_iff]
  constructor
  · intro hrow c hc
    exact hrow c (hsubset c hc)
  · intro hrow c hc
    exact hrow c (hsubset c hc)

theorem compile_append_of_refused {fs gs : List Filter}
    (h : (∃ e, Condition.ofFilters d fs = .error e) ∨ ∃ e, Condition.ofFilters d gs = .error e) :
    let errors := Condition.errors (Condition.ofFilters d fs) ++
      Condition.errors (Condition.ofFilters d gs)
    Condition.ofFilters d (fs ++ gs) = .error (.fields errors) ∧
      compile d (some (fs ++ gs)) = .error (.fields errors) := by
  intro errors
  have herrors : errors = (fs ++ gs).filterMap (Filter.fault? d) := by
    rw [List.filterMap_append, ← Condition.errors_ofFilters, ← Condition.errors_ofFilters]
  have hfaults : (fs ++ gs).filterMap (Filter.fault? d) ≠ [] := by
    rw [Condition.exists_error_iff, Condition.exists_error_iff] at h
    rw [List.filterMap_append, Ne, List.append_eq_nil_iff, not_and_or]
    exact h
  rw [herrors]
  refine ⟨Condition.ofFilters_of_faulty hfaults, ?_⟩
  obtain ⟨_, hrefused⟩ | ⟨hnone, _⟩ := compile_cases d (some (fs ++ gs))
  · exact hrefused
  · exact absurd hnone hfaults

theorem compile_append_of_accepted {fs gs : List Filter} {p q : CompiledQuery}
    (hp : compile d (some fs) = .ok p) (hq : compile d (some gs) = .ok q) :
    ∃ r, compile d (some (fs ++ gs)) = .ok r ∧ r.predicate = p.predicate.and q.predicate ∧
      Specification.toComparisons r.specification =
        Specification.toComparisons p.specification ++
          Specification.toComparisons q.specification := by
  obtain ⟨hfs, conditions, hread, rfl⟩ := compile_eq_ok_iff.1 hp
  obtain ⟨hgs, conditions', hread', rfl⟩ := compile_eq_ok_iff.1 hq
  refine ⟨ofConditions (conditions ++ conditions'), ?_, ?_, ?_⟩
  · rw [compile_eq_ok_iff, List.filterMap_append, hfs, hgs]
    exact ⟨rfl, _, List.rel_append hread hread', rfl⟩
  · exact (Predicate.flat_and_flat conditions conditions').symm
  · simp only [ofConditions, Specification.toComparisons_ofComparisons, List.map_append]

/-- Compiling joined lists of filters. If one of the lists is refused, the errors are those of
the first list and then those of the second. If both are accepted, the predicate is the
conjunction of both predicates, the comparisons are those of both lists in their order, and
a row satisfies the predicate exactly if it satisfies both. Lists with the same filters, in
whatever order and number, are accepted alike and select the same rows, and a list with more
filters selects no more rows. -/
theorem compile_joined (d : Descriptor) (fs gs : List Filter) :
    ((∃ e, Condition.ofFilters d fs = .error e) ∨ (∃ e, Condition.ofFilters d gs = .error e) →
      let errors := Condition.errors (Condition.ofFilters d fs) ++
        Condition.errors (Condition.ofFilters d gs)
      Condition.ofFilters d (fs ++ gs) = .error (.fields errors) ∧
        compile d (some (fs ++ gs)) = .error (.fields errors)) ∧
    (∀ p q, compile d (some fs) = .ok p → compile d (some gs) = .ok q →
      ∃ r, compile d (some (fs ++ gs)) = .ok r ∧ r.predicate = p.predicate.and q.predicate ∧
        Specification.toComparisons r.specification =
          Specification.toComparisons p.specification ++
            Specification.toComparisons q.specification ∧
        ∀ row : Row, r.predicate.eval row = (p.predicate.eval row && q.predicate.eval row)) ∧
    (∀ p, compile d (some fs) = .ok p → (∀ f, f ∈ gs ↔ f ∈ fs) →
      ∃ q, compile d (some gs) = .ok q ∧ SelectsWithin q p ∧ SelectsWithin p q) ∧
    ∀ p q, compile d (some fs) = .ok p → compile d (some gs) = .ok q → (∀ f ∈ fs, f ∈ gs) →
      SelectsWithin q p := by
  refine ⟨compile_append_of_refused, ?_, ?_, ?_⟩
  · intro p q hp hq
    obtain ⟨r, hr, hpredicate, hcomparisons⟩ := compile_append_of_accepted hp hq
    refine ⟨r, hr, hpredicate, hcomparisons, ?_⟩
    intro row
    rw [hpredicate, Predicate.eval_and]
  · intro p hp hsame
    have hsound : gs.filterMap (Filter.fault? d) = [] := by
      rw [List.filterMap_eq_nil_iff]
      intro f hf
      exact List.filterMap_eq_nil_iff.1 (compile_eq_ok_iff.1 hp).1 f ((hsame f).1 hf)
    obtain ⟨conditions, _, hread⟩ := Condition.ofFilters_of_sound hsound
    have hq : compile d (some gs) = .ok (ofConditions conditions) :=
      compile_eq_ok_iff.2 ⟨hsound, conditions, hread, rfl⟩
    refine ⟨_, hq, ?_, ?_⟩
    · exact selectsWithin_of_subset hq hp fun f hf => (hsame f).2 hf
    · exact selectsWithin_of_subset hp hq fun f hf => (hsame f).1 hf
  · intro p q hp hq hsubset
    exact selectsWithin_of_subset hq hp hsubset

end CompiledQuery

end EntityQuery
