import Mathlib.Data.List.Forall2
import Mathlib.Data.List.Induction
import EntityQuery.CompiledQuery
/-!
# Compiling a list of filters

The compiler looks up, reads and checks every filter, and the builders check the
conditions once more. `Filter.fault?` says in one place what is wrong with a filter,
and `Condition.ReadFrom` which condition a filter without a fault stands for. The
compiler reports exactly the faults, and the builders accept whatever the compiler
hands to them, so their own checks never decide anything.

Both forms of a query are described by the same list of conditions: a specification
by its comparisons from left to right, a predicate by the conjunction `Predicate.flat`
of its members.
-/

namespace EntityQuery

/-- What is wrong with a filter. A name of no field or of no possible length comes
before an unreadable value, and that before an operator that does not apply. -/
def Filter.fault? (d : Descriptor) (f : Filter) : Option FilterError :=
  if f.field.length < 1 ∨ 255 < f.field.length then some (.unknownField d.entity f.field)
  else
    match d.type? f.field with
    | none => some (.unknownField d.entity f.field)
    | some type =>
      if FieldValue.ofRaw? type f.value = none then
        some (.invalidValue f.field f.value type.expected)
      else if f.operator.supports type then none
      else some (.unsupportedOperator f.field f.operator type.name)

theorem Filter.hasFieldLength_iff (f : Filter) :
    f.hasFieldLength = true ↔ ¬(f.field.length < 1 ∨ 255 < f.field.length) := by
  simp only [hasFieldLength, Bool.and_eq_true, decide_eq_true_eq]
  omega

/-- The condition says what the filter says, with the value read as the declared type. -/
structure Condition.ReadFrom (d : Descriptor) (f : Filter) (c : Condition) : Prop where
  field : c.field = f.field
  operator : c.operator = f.operator
  declared : d.type? f.field = some c.type
  value : FieldValue.ofRaw? c.type f.value = some c.value
  supported : f.operator.supports c.type = true

/-- A value that was read for a type has the form of the type. -/
theorem FieldValue.accepts_of_ofRaw? {type : FieldType} {raw : String} {v : FieldValue}
    (h : ofRaw? type raw = some v) : type.accepts v = true := by
  cases type with
  | enum constants =>
      simp only [ofRaw?, Option.ite_none_right_eq_some, Option.some.injEq] at h
      rw [← h.2]
      rfl
  | _ =>
      simp only [ofRaw?, Option.map_eq_some_iff, Option.some.injEq] at h
      first
        | (subst h; rfl)
        | (obtain ⟨_, _, rfl⟩ := h; rfl)

namespace Condition

variable {d : Descriptor} {f : Filter} {c : Condition} {filters : List Filter}
variable {conditions : List Condition}

/-- All that can become of a filter: its fault is reported, or it has no fault and
becomes a condition that says the same. -/
theorem ofFilter_cases (d : Descriptor) (f : Filter) :
    (∃ e, f.fault? d = some e ∧ ofFilter d f = .error e) ∨
      (f.fault? d = none ∧ ∃ c, ofFilter d f = .ok c ∧ c.ReadFrom d f) := by
  unfold Filter.fault? ofFilter Descriptor.resolve FieldValue.coerce Operator.validate
  by_cases hlength : f.field.length < 1 ∨ 255 < f.field.length
  · have hbad : f.hasFieldLength = false := by
      rw [← Bool.not_eq_true, f.hasFieldLength_iff, not_not]
      exact hlength
    rw [if_pos hlength, hbad]
    exact .inl ⟨_, rfl, rfl⟩
  · have hgood : f.hasFieldLength = true := f.hasFieldLength_iff.2 hlength
    rw [if_neg hlength, hgood]
    cases htype : d.type? f.field with
    | none => exact .inl ⟨_, rfl, rfl⟩
    | some type =>
        cases hvalue : FieldValue.ofRaw? type f.value with
        | none => exact .inl ⟨_, if_pos hvalue, by simp [hvalue, bind, Except.bind]⟩
        | some v =>
            have hread : FieldValue.ofRaw? type f.value ≠ none := by simp [hvalue]
            cases hop : f.operator.supports type with
            | false =>
                refine .inl ⟨.unsupportedOperator f.field f.operator type.name, ?_, ?_⟩
                · simp [hread, hop]
                · simp [hvalue, hop, bind, Except.bind]
            | true =>
                refine .inr ⟨?_, ⟨f.field, type, f.operator, v⟩, ?_, rfl, rfl, htype, hvalue, hop⟩
                · simp [hread, hop]
                · simp [hvalue, hop, bind, Except.bind, pure, Except.pure]

theorem error?_ofFilter (d : Descriptor) (f : Filter) :
    error? (ofFilter d f) = f.fault? d := by
  obtain ⟨e, hfault, hresult⟩ | ⟨hfault, c, hresult, _⟩ := ofFilter_cases d f
  · rw [hresult, hfault]
    rfl
  · rw [hresult, hfault]
    rfl

theorem filterMap_error?_map_ofFilter (d : Descriptor) (filters : List Filter) :
    (filters.map (ofFilter d)).filterMap error? = filters.filterMap (Filter.fault? d) := by
  rw [List.filterMap_map]
  exact List.filterMap_congr fun f _ => error?_ofFilter d f

/-- Filters with a fault among them are refused with all faults. -/
theorem ofFilters_of_faulty (h : filters.filterMap (Filter.fault? d) ≠ []) :
    ofFilters d filters = .error (.fields (filters.filterMap (Filter.fault? d))) := by
  simp only [ofFilters, filterMap_error?_map_ofFilter, List.isEmpty_iff, if_neg h]

/-- Filters without a fault become conditions, one for each, in their order. -/
theorem ofFilters_of_sound (h : filters.filterMap (Filter.fault? d) = []) :
    ∃ conditions, ofFilters d filters = .ok conditions ∧
      List.Forall₂ (fun f c => ReadFrom d f c) filters conditions := by
  refine ⟨(filters.map (ofFilter d)).filterMap Except.toOption, ?_, ?_⟩
  · simp only [ofFilters, filterMap_error?_map_ofFilter, h, List.isEmpty_nil, if_true]
  · induction filters with
    | nil => exact .nil
    | cons f rest ih =>
        obtain ⟨e, hfault, _⟩ | ⟨hfault, c, hresult, hread⟩ := ofFilter_cases d f
        · rw [List.filterMap_cons_some hfault] at h
          cases h
        · rw [List.filterMap_cons_none hfault] at h
          rw [List.map_cons, hresult]
          exact .cons hread (ih h)

theorem readFrom_of_ofFilters (h : ofFilters d filters = .ok conditions) :
    filters.filterMap (Filter.fault? d) = [] ∧
      List.Forall₂ (fun f c => ReadFrom d f c) filters conditions := by
  by_cases hfaults : filters.filterMap (Filter.fault? d) = []
  · obtain ⟨conditions', hresult, hread⟩ := ofFilters_of_sound hfaults
    rw [hresult] at h
    cases h
    exact ⟨hfaults, hread⟩
  · rw [ofFilters_of_faulty hfaults] at h
    cases h

/-- A filter stands for one condition only. -/
theorem ReadFrom.unique {c' : Condition} (h : ReadFrom d f c) (h' : ReadFrom d f c') : c = c' := by
  have htype : c.type = c'.type := Option.some.inj (h.declared.symm.trans h'.declared)
  have hvalue : c.value = c'.value := by
    refine Option.some.inj (h.value.symm.trans ?_)
    rw [htype]
    exact h'.value
  cases c
  cases c'
  simp only [mk.injEq]
  exact ⟨h.field.trans h'.field.symm, htype, h.operator.trans h'.operator.symm, hvalue⟩

theorem ReadFrom.rightUnique (d : Descriptor) :
    Relator.RightUnique fun f c => ReadFrom d f c :=
  fun _ _ _ h h' => h.unique h'

theorem mem_iff_of_forall₂ (h : List.Forall₂ (fun f c => ReadFrom d f c) filters conditions)
    {c : Condition} : c ∈ conditions ↔ ∃ f ∈ filters, c.ReadFrom d f := by
  induction h with
  | nil => simp
  | @cons f c' filters conditions hread _ ih =>
      have hfirst : c = c' ↔ c.ReadFrom d f := by
        constructor
        · rintro rfl
          exact hread
        · intro h
          exact h.unique hread
      rw [List.mem_cons, hfirst, ih]
      simp

theorem ReadFrom.fault?_eq_none (h : ReadFrom d f c) (hlength : f.hasFieldLength = true) :
    f.fault? d = none := by
  rw [Filter.fault?, if_neg (f.hasFieldLength_iff.1 hlength), h.declared]
  simp [h.value, h.supported]

/-- The builders' check asks of a condition that was read for one descriptor only whether the
other one declares the same field with the same type. -/
theorem ReadFrom.check_eq (h : ReadFrom d f c) (d' : Descriptor) :
    c.check d' = if d'.type? c.field = some c.type then .ok ()
      else .error (.unknownField d'.entity c.field) := by
  have haccepts := FieldValue.accepts_of_ofRaw? h.value
  have hsupported : c.operator.supports c.type = true := h.operator ▸ h.supported
  unfold Condition.check Descriptor.resolve Operator.validate
  cases htype : d'.type? c.field with
  | none => rfl
  | some type =>
      by_cases hsame : type = c.type
      · subst hsame
        simp [haccepts, hsupported, bind, Except.bind]
      · simp [hsame, bind, Except.bind]

/-- The builders' check accepts every condition that was read for the same descriptor. -/
theorem ReadFrom.check (h : ReadFrom d f c) : c.check d = .ok () := by
  rw [h.check_eq d, if_pos (h.field ▸ h.declared)]

theorem filterMap_fault?_of_forall₂ (hlength : ∀ f ∈ filters, f.hasFieldLength = true)
    (h : List.Forall₂ (fun f c => ReadFrom d f c) filters conditions) :
    filters.filterMap (Filter.fault? d) = [] := by
  induction h with
  | nil => rfl
  | @cons f c filters conditions hread _ ih =>
      rw [List.filterMap_cons_none (hread.fault?_eq_none (hlength f List.mem_cons_self))]
      exact ih fun f' hf' => hlength f' (List.mem_cons_of_mem f hf')

theorem check_of_forall₂ (h : List.Forall₂ (fun f c => ReadFrom d f c) filters conditions) :
    ∀ c ∈ conditions, c.check d = .ok () := by
  induction h with
  | nil => simp
  | cons hread _ ih =>
      intro c hc
      obtain rfl | hc := List.mem_cons.1 hc
      · exact hread.check
      · exact ih c hc

end Condition

/-! ## The two forms -/

/-- The comparisons of a specification; where there is no specification, there are none. -/
def Specification.toComparisons : Option Specification → List Comparison
  | none => []
  | some spec => spec.comparisons

/-- The specification of comparisons, each joined to all those before it. -/
def Specification.ofComparisons (comparisons : List Comparison) : Option Specification :=
  comparisons.foldl (fun spec c => some (extend spec c)) none

/-- The conjunction of members that are not conjunctions themselves. -/
def Predicate.flat : List Predicate → Predicate
  | [] => .always
  | [p] => p
  | members => .all members

section Forms

variable {d : Descriptor} {conditions : List Condition}

@[simp] theorem Specification.comparisons_extend (spec : Option Specification) (c : Comparison) :
    (Specification.extend spec c).comparisons = Specification.toComparisons spec ++ [c] := by
  cases spec with
  | none => rfl
  | some spec => rfl

/-- A specification has the comparisons it was made of, from left to right. -/
@[simp] theorem Specification.toComparisons_ofComparisons (comparisons : List Comparison) :
    toComparisons (ofComparisons comparisons) = comparisons := by
  induction comparisons using List.reverseRecOn with
  | nil => rfl
  | append_singleton rest c ih =>
      rw [ofComparisons, List.foldl_append]
      exact (comparisons_extend _ c).trans (congrArg (· ++ [c]) ih)

theorem Specification.ofComparisons_eq_none_iff (comparisons : List Comparison) :
    ofComparisons comparisons = none ↔ comparisons = [] := by
  constructor
  · intro h
    rw [← toComparisons_ofComparisons comparisons, h]
    rfl
  · rintro rfl
    rfl

/-- One more comparison behind a flat conjunction of comparisons gives a flat conjunction. -/
theorem Predicate.flat_and_ofCondition (conditions : List Condition) (c : Condition) :
    (Predicate.flat (conditions.map .ofCondition)).and (.ofCondition c) =
      .flat ((conditions ++ [c]).map .ofCondition) := by
  match conditions with
  | [] => rfl
  | [_] => rfl
  | _ :: _ :: _ => simp [Predicate.flat, Predicate.and, Predicate.ofCondition]

/-- A conjunction holds where all its members do. -/
theorem Predicate.evalAll_iff (lookup : String → Option FieldValue) (members : List Predicate) :
    evalAll lookup members = true ↔ ∀ p ∈ members, p.eval lookup = true := by
  induction members with
  | nil => simp [evalAll]
  | cons p rest ih => simp [evalAll, ih]

theorem Predicate.eval_flat_iff (lookup : String → Option FieldValue)
    (members : List Predicate) :
    (flat members).eval lookup = true ↔ ∀ p ∈ members, p.eval lookup = true := by
  match members with
  | [] => simp [flat, eval]
  | [p] => simp [flat]
  | p :: q :: rest => exact evalAll_iff lookup (p :: q :: rest)

/-- Checks conditions one after the other, up to the first that is refused. -/
def Condition.checkAll (d : Descriptor) (conditions : List Condition) : Except FilterError Unit :=
  conditions.forM (check d)

theorem Condition.checkAll_cons (d : Descriptor) (c : Condition) (rest : List Condition) :
    checkAll d (c :: rest) = (c.check d).bind fun _ => checkAll d rest := rfl

theorem Condition.checkAll_of_checked (h : ∀ c ∈ conditions, c.check d = .ok ()) :
    checkAll d conditions = .ok () := by
  induction conditions with
  | nil => rfl
  | cons c rest ih =>
      rw [checkAll_cons, h c List.mem_cons_self]
      exact ih fun c' hc' => h c' (List.mem_cons_of_mem c hc')

/-- A loop that checks each condition before it takes it is refused where checking them is, and
else takes them all. What it makes of them does not depend on the descriptor. -/
theorem Condition.foldlM_check {β : Type} (take : β → Condition → β) (taken : β)
    (conditions : List Condition) :
    conditions.foldlM (fun taken c => do
        c.check d
        return take taken c) taken =
      (checkAll d conditions).map fun _ => conditions.foldl take taken := by
  induction conditions generalizing taken with
  | nil => rfl
  | cons c rest ih =>
      rw [List.foldlM_cons, checkAll_cons]
      cases c.check d with
      | error e => rfl
      | ok => exact ih (take taken c)

theorem Specification.build_eq (d : Descriptor) (conditions : List Condition) :
    Specification.build d conditions =
      (Condition.checkAll d conditions).map fun _ => ofComparisons (conditions.map .ofCondition) := by
  rw [Specification.build, Condition.foldlM_check, ofComparisons, List.foldl_map]

theorem Predicate.build_eq (d : Descriptor) (conditions : List Condition) :
    Predicate.build d conditions =
      (Condition.checkAll d conditions).map fun _ => flat (conditions.map .ofCondition) := by
  have hflat : conditions.foldl (fun p c => p.and (ofCondition c)) always =
      flat (conditions.map .ofCondition) := by
    induction conditions using List.reverseRecOn with
    | nil => rfl
    | append_singleton rest c ih =>
        rw [List.foldl_append, ih]
        exact flat_and_ofCondition rest c
  rw [Predicate.build, Condition.foldlM_check, hflat]

theorem Specification.build_of_checked (h : ∀ c ∈ conditions, c.check d = .ok ()) :
    Specification.build d conditions = .ok (ofComparisons (conditions.map .ofCondition)) := by
  rw [build_eq, Condition.checkAll_of_checked h]
  rfl

theorem Predicate.build_of_checked (h : ∀ c ∈ conditions, c.check d = .ok ()) :
    Predicate.build d conditions = .ok (flat (conditions.map .ofCondition)) := by
  rw [build_eq, Condition.checkAll_of_checked h]
  rfl

end Forms

/-! ## Queries -/

namespace CompiledQuery

/-- The query of conditions in both forms. -/
def ofConditions (conditions : List Condition) : CompiledQuery :=
  ⟨Specification.ofComparisons (conditions.map .ofCondition),
    Predicate.flat (conditions.map .ofCondition)⟩

variable {d : Descriptor} {filters : Option (List Filter)} {q : CompiledQuery}

/-- Only the query of no condition matches everything by its shape. -/
theorem isMatchAll_ofConditions_iff (conditions : List Condition) :
    (ofConditions conditions).isMatchAll = true ↔ conditions = [] := by
  constructor
  · intro h
    have hnone : Specification.ofComparisons (conditions.map .ofCondition) = none := by
      simpa [isMatchAll, ofConditions] using (Bool.and_eq_true_iff.1 h).1
    simpa [Specification.ofComparisons_eq_none_iff] using hnone
  · rintro rfl
    rfl

/-- All that can become of a list of filters: its faults are reported, or it has none and
becomes the query of the conditions that the filters stand for. -/
theorem compile_cases (d : Descriptor) (filters : Option (List Filter)) :
    ((filters.getD []).filterMap (Filter.fault? d) ≠ [] ∧
        compile d filters = .error (.fields ((filters.getD []).filterMap (Filter.fault? d)))) ∨
      ((filters.getD []).filterMap (Filter.fault? d) = [] ∧
        ∃ conditions, Condition.ofFilters d (filters.getD []) = .ok conditions ∧
          List.Forall₂ (fun f c => Condition.ReadFrom d f c) (filters.getD []) conditions ∧
          compile d filters = .ok (ofConditions conditions)) := by
  match filters with
  | none => exact .inr ⟨rfl, [], rfl, .nil, rfl⟩
  | some [] => exact .inr ⟨rfl, [], rfl, .nil, rfl⟩
  | some (f :: rest) =>
      simp only [compile, ofFilters, Option.getD_some]
      by_cases hfaults : (f :: rest).filterMap (Filter.fault? d) = []
      · obtain ⟨conditions, hconditions, hread⟩ := Condition.ofFilters_of_sound hfaults
        have hchecked := Condition.check_of_forall₂ hread
        refine .inr ⟨hfaults, conditions, hconditions, hread, ?_⟩
        rw [hconditions]
        simp [Builder.run, Builder.relational, Builder.predicate, ofConditions, bind, Except.bind,
          Specification.build_of_checked hchecked, Predicate.build_of_checked hchecked, pure,
          Except.pure]
      · refine .inl ⟨hfaults, ?_⟩
        rw [Condition.ofFilters_of_faulty hfaults]
        rfl

theorem eq_ofConditions_of_compile (h : compile d filters = .ok q) :
    ∃ conditions, q = ofConditions conditions ∧
      List.Forall₂ (fun f c => Condition.ReadFrom d f c) (filters.getD []) conditions := by
  obtain ⟨_, hrefused⟩ | ⟨_, conditions, _, hread, hcompiled⟩ := compile_cases d filters
  · rw [hrefused] at h
    cases h
  · rw [hcompiled] at h
    cases h
    exact ⟨conditions, rfl, hread⟩

theorem compile_of_forall₂ {conditions : List Condition}
    (hlength : ∀ f ∈ filters.getD [], f.hasFieldLength = true)
    (h : List.Forall₂ (fun f c => Condition.ReadFrom d f c) (filters.getD []) conditions) :
    compile d filters = .ok (ofConditions conditions) := by
  obtain ⟨hfaults, _⟩ | ⟨_, conditions', _, hread, hcompiled⟩ := compile_cases d filters
  · exact absurd (Condition.filterMap_fault?_of_forall₂ hlength h) hfaults
  · rw [hcompiled, (Condition.ReadFrom.rightUnique d).forall₂ hread h]

/-- Compiling is one pass over the filters. A list with faults is refused with exactly its
faults, in order. Any other list becomes a query in which the `i`th comparison and the
`i`th member come from the `i`th filter. The builders never refuse what the compiler hands
to them, only the empty list gives the query that matches everything, and compiling with
one builder gives the builder's half of the answer. -/
theorem compile_one_pass (d : Descriptor) (filters : Option (List Filter)) :
    let faults := (filters.getD []).filterMap (Filter.fault? d)
    (faults ≠ [] → compile d filters = .error (.fields faults)) ∧
    (faults = [] → ∃ q conditions, compile d filters = .ok q ∧
      List.Forall₂ (fun f c => Condition.ReadFrom d f c) (filters.getD []) conditions ∧
      Specification.toComparisons q.specification = conditions.map Comparison.ofCondition ∧
      q.predicate = Predicate.flat (conditions.map Predicate.ofCondition) ∧
      (q.isMatchAll = true ↔ filters.getD [] = []) ∧
      (filters.getD [] = [] → q = matchAll)) ∧
    (∀ conditions, Condition.ofFilters d (filters.getD []) = .ok conditions →
      (∃ spec, Specification.build d conditions = .ok spec) ∧
        ∃ p, Predicate.build d conditions = .ok p) ∧
    Builder.relational.compile d filters = (compile d filters).map specification ∧
    Builder.predicate.compile d filters = (compile d filters).map predicate := by
  intro faults
  have hbuilders : ∀ conditions, Condition.ofFilters d (filters.getD []) = .ok conditions →
      Specification.build d conditions = .ok (ofConditions conditions).specification ∧
        Predicate.build d conditions = .ok (ofConditions conditions).predicate := by
    intro conditions h
    have hchecked := Condition.check_of_forall₂ (Condition.readFrom_of_ofFilters h).2
    exact ⟨Specification.build_of_checked hchecked, Predicate.build_of_checked hchecked⟩
  refine ⟨?_, ?_, ?_, ?_⟩
  · intro hfaults
    obtain ⟨_, hrefused⟩ | ⟨hnone, _⟩ := compile_cases d filters
    · exact hrefused
    · exact absurd hnone hfaults
  · intro hfaults
    obtain ⟨hsome, _⟩ | ⟨_, conditions, _, hread, hcompiled⟩ := compile_cases d filters
    · exact absurd hfaults hsome
    · have hempty : conditions = [] ↔ filters.getD [] = [] := by
        rw [← List.length_eq_zero_iff, ← hread.length_eq, List.length_eq_zero_iff]
      refine ⟨_, conditions, hcompiled, hread, ?_, rfl, ?_, ?_⟩
      · exact Specification.toComparisons_ofComparisons _
      · exact (isMatchAll_ofConditions_iff conditions).trans hempty
      · intro h
        rw [hempty.2 h]
        rfl
  · intro conditions h
    obtain ⟨hspec, hpredicate⟩ := hbuilders conditions h
    exact ⟨⟨_, hspec⟩, _, hpredicate⟩
  · obtain ⟨hfaults, hrefused⟩ | ⟨_, conditions, hconditions, _, hcompiled⟩ :=
      compile_cases d filters
    · rw [hrefused]
      simp only [Builder.compile, Condition.ofFilters_of_faulty hfaults]
      exact ⟨rfl, rfl⟩
    · obtain ⟨hspec, hpredicate⟩ := hbuilders conditions hconditions
      rw [hcompiled]
      simp only [Builder.compile, hconditions]
      constructor
      · simp [Builder.run, Builder.relational, hspec, bind, Except.bind, Except.map]
      · simp [Builder.run, Builder.predicate, hpredicate, bind, Except.bind, Except.map]

end CompiledQuery

end EntityQuery
