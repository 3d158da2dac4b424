import EntityQuery.Proofs.Compilation
/-!
# Conditions of another entity

Conditions that were made for one entity may be handed to the builders together with the
descriptor of another one. Of that descriptor the builders ask only whether it declares the
fields of the conditions with the types of the conditions: the first condition for which it does
not is reported by both, and if there is none, both give what they give for the first entity.
-/

namespace EntityQuery

variable {d d' : Descriptor} {filters : List Filter} {conditions : List Condition}

namespace Condition

/-- The descriptor declares the field of the condition with the type of the condition. -/
def IsDeclaredIn (d : Descriptor) (c : Condition) : Prop :=
  d.type? c.field = some c.type

instance (d : Descriptor) : DecidablePred (IsDeclaredIn d) := fun c =>
  inferInstanceAs (Decidable (d.type? c.field = some c.type))

/-- The condition is the first of the list that the descriptor does not declare. -/
def IsFirstForeign (d : Descriptor) (conditions : List Condition) (c : Condition) : Prop :=
  ∃ before after, conditions = before ++ c :: after ∧ (∀ c' ∈ before, c'.IsDeclaredIn d) ∧
    ¬c.IsDeclaredIn d

theorem isFirstForeign_iff {c : Condition} :
    IsFirstForeign d conditions c ↔ conditions.find? (fun c => ¬c.IsDeclaredIn d) = some c := by
  rw [List.find?_eq_some_iff_append]
  constructor
  · rintro ⟨before, after, hsplit, hbefore, hc⟩
    exact ⟨by simpa using hc, before, after, hsplit, by simpa using hbefore⟩
  · rintro ⟨hc, before, after, hsplit, hbefore⟩
    exact ⟨before, after, hsplit, by simpa using hbefore, by simpa using hc⟩

theorem isDeclaredIn_cases (d : Descriptor) (conditions : List Condition) :
    (∀ c ∈ conditions, c.IsDeclaredIn d) ∨ ∃ c, IsFirstForeign d conditions c := by
  simp only [isFirstForeign_iff]
  cases hfound : conditions.find? fun c => ¬c.IsDeclaredIn d with
  | none => exact .inl (by simpa using hfound)
  | some c => exact .inr ⟨c, rfl⟩

theorem checkAll_append (d : Descriptor) (before after : List Condition) :
    checkAll d (before ++ after) = (checkAll d before).bind fun _ => checkAll d after := by
  induction before with
  | nil => rfl
  | cons c rest ih =>
      rw [List.cons_append, checkAll_cons, checkAll_cons, ih]
      cases c.check d <;> rfl

/-- Of accepted conditions the builders' check asks only whether they are declared. -/
theorem check_of_ofFilters (h : ofFilters d filters = .ok conditions) (d' : Descriptor) :
    ∀ c ∈ conditions, c.check d' =
      if c.IsDeclaredIn d' then .ok () else .error (.unknownField d'.entity c.field) := by
  intro c hc
  obtain ⟨f, _, hread⟩ := (mem_iff_of_forall₂ (readFrom_of_ofFilters h).2).1 hc
  exact hread.check_eq d'

theorem checkAll_of_declared (h : ofFilters d filters = .ok conditions)
    (hdeclared : ∀ c ∈ conditions, c.IsDeclaredIn d') : checkAll d' conditions = .ok () := by
  refine checkAll_of_checked ?_
  intro c hc
  rw [check_of_ofFilters h d' c hc, if_pos (hdeclared c hc)]

theorem checkAll_of_isFirstForeign (h : ofFilters d filters = .ok conditions) {c : Condition}
    (hforeign : IsFirstForeign d' conditions c) :
    checkAll d' conditions = .error (.unknownField d'.entity c.field) := by
  have hcheck := check_of_ofFilters h d'
  obtain ⟨before, after, rfl, hbefore, hc⟩ := hforeign
  have hpassed : checkAll d' before = .ok () := by
    refine checkAll_of_checked ?_
    intro c' hc'
    rw [hcheck c' (List.mem_append_left _ hc'), if_pos (hbefore c' hc')]
  have hrefused : c.check d' = .error (.unknownField d'.entity c.field) := by
    rw [hcheck c (by simp), if_neg hc]
  rw [checkAll_append, hpassed, Except.bind, checkAll_cons, hrefused]
  rfl

end Condition

/-- Both builders come to one verdict on conditions that were accepted for one entity and are
built for another. Either the other entity declares all their fields with their types: then both
give what they give for the first entity. Or one condition is the first for which it does not:
then both are refused with the name of its field, whatever comes behind it. -/
theorem Builder.verdicts_agree {A : Descriptor} {filters : List Filter}
    {conditions : List Condition} (h : Condition.ofFilters A filters = .ok conditions)
    (B : Descriptor) :
    ((∀ c ∈ conditions, c.IsDeclaredIn B) ∧
      ∃ specification p,
        Builder.relational.build A conditions = .ok specification ∧
        Builder.relational.build B conditions = .ok specification ∧
        Builder.predicate.build A conditions = .ok p ∧
        Builder.predicate.build B conditions = .ok p) ∨
    ∃ c, Condition.IsFirstForeign B conditions c ∧
      Builder.relational.build B conditions = .error (.unknownField B.entity c.field) ∧
      Builder.predicate.build B conditions = .error (.unknownField B.entity c.field) := by
  simp only [relational, predicate, Specification.build_eq, Predicate.build_eq]
  obtain hdeclared | ⟨c, hforeign⟩ := Condition.isDeclaredIn_cases B conditions
  · have hread := (Condition.readFrom_of_ofFilters h).2
    have hown : Condition.checkAll A conditions = .ok () :=
      Condition.checkAll_of_checked (Condition.check_of_forall₂ hread)
    rw [hown, Condition.checkAll_of_declared h hdeclared]
    exact .inl ⟨hdeclared, _, _, rfl, rfl, rfl, rfl⟩
  · rw [Condition.checkAll_of_isFirstForeign h hforeign]
    exact .inr ⟨c, hforeign, rfl, rfl⟩

/-- The levels of two entities are the same constants in another order, which is another type. That
the second entity has no birthday is not reported any more. -/
theorem Builder.verdicts_on_level :
    let A := Descriptor.ofDeclarations "task" "id"
      [("name", .text), ("level", .enum ["LOW", "HIGH"]), ("birthday", .date)]
    let B := Descriptor.ofDeclarations "log" "id"
      [("level", .enum ["HIGH", "LOW"]), ("name", .text)]
    let filters : List Filter :=
      [⟨"name", "a", .contains⟩, ⟨"level", "HIGH", .equal⟩, ⟨"birthday", "2010-11-23", .less⟩]
    ∃ conditions, Condition.ofFilters A filters = .ok conditions ∧
      Builder.relational.build B conditions = .error (.unknownField "log" "level") ∧
      Builder.predicate.build B conditions = .error (.unknownField "log" "level") := by
  intro A B filters
  let level : Condition := ⟨"level", .enum ["LOW", "HIGH"], .equal, .enum "HIGH"⟩
  let conditions : List Condition :=
    [⟨"name", .text, .contains, .text "a"⟩, level,
      ⟨"birthday", .date, .less, .date ⟨2010, 11, 23, by decide⟩⟩]
  have h : Condition.ofFilters A filters = .ok conditions := rfl
  have hlevel : conditions.find? (fun c => ¬c.IsDeclaredIn B) = some level := rfl
  refine ⟨conditions, h, ?_⟩
  obtain ⟨hdeclared, -⟩ | ⟨c, hforeign, hrefused⟩ := Builder.verdicts_agree h B
  · exact absurd hdeclared (by decide)
  · rw [Condition.isFirstForeign_iff, hlevel] at hforeign
    obtain rfl : level = c := Option.some.inj hforeign
    exact hrefused

end EntityQuery
