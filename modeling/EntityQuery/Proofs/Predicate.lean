import EntityQuery.Predicate
/-!
# The conjunction of predicates

A predicate is a tree whose inner nodes are conjunctions of any number of members, none
included. Its leaves are comparisons, and they alone decide of what the tree holds and
whether it holds of everything: where no field has a value no comparison holds.

The conjunction of two predicates has the members of both side by side. What is not a
conjunction is its only member, and `always` has none. The members themselves are not looked
into, so trees that nobody has flattened stay as they are.
-/

namespace EntityQuery.Predicate

/-! ## Leaves -/

mutual

/-- The comparisons of a predicate from left to right. -/
def leaves : Predicate → List Predicate
  | always => []
  | compare field op value => [compare field op value]
  | all members => leavesAll members

def leavesAll : List Predicate → List Predicate
  | [] => []
  | p :: rest => leaves p ++ leavesAll rest

end

-- A tree is followed into the list of its members, so each fact comes with one about lists.
mutual

/-- A predicate holds where all its comparisons do. -/
theorem eval_eq_all_leaves (lookup : String → Option FieldValue) :
    ∀ p : Predicate, p.eval lookup = p.leaves.all (eval lookup)
  | always => rfl
  | compare _ _ _ => by rw [leaves, List.all_cons, List.all_nil, Bool.and_true]
  | all members => by rw [eval, leaves, evalAll_eq_all_leaves lookup members]

theorem evalAll_eq_all_leaves (lookup : String → Option FieldValue) :
    ∀ ps : List Predicate, evalAll lookup ps = (leavesAll ps).all (eval lookup)
  | [] => rfl
  | p :: rest => by
      rw [evalAll, leavesAll, List.all_append, eval_eq_all_leaves lookup p,
        evalAll_eq_all_leaves lookup rest]

end

mutual

/-- Tautologies are the trees without comparisons. -/
theorem isTautology_iff_leaves : ∀ p : Predicate, p.isTautology = true ↔ p.leaves = []
  | always => by simp [isTautology, leaves]
  | compare _ _ _ => by simp [isTautology, leaves]
  | all members => by rw [isTautology, leaves, areTautologies_iff_leaves members]

theorem areTautologies_iff_leaves :
    ∀ ps : List Predicate, areTautologies ps = true ↔ leavesAll ps = []
  | [] => by simp [areTautologies, leavesAll]
  | p :: rest => by
      rw [areTautologies, leavesAll, Bool.and_eq_true, List.append_eq_nil_iff,
        isTautology_iff_leaves p, areTautologies_iff_leaves rest]

end

mutual

theorem exists_compare_of_mem_leaves {leaf : Predicate} :
    ∀ p : Predicate, leaf ∈ p.leaves → ∃ field op value, leaf = compare field op value
  | always, h => by cases h
  | compare field op value, h => ⟨field, op, value, List.mem_singleton.1 h⟩
  | all members, h => exists_compare_of_mem_leavesAll members h

theorem exists_compare_of_mem_leavesAll {leaf : Predicate} :
    ∀ ps : List Predicate, leaf ∈ leavesAll ps → ∃ field op value, leaf = compare field op value
  | [], h => by cases h
  | p :: rest, h => by
      obtain h | h := List.mem_append.1 h
      · exact exists_compare_of_mem_leaves p h
      · exact exists_compare_of_mem_leavesAll rest h

end

/-- A predicate with a comparison that does not hold does not hold either. -/
theorem eval_of_mem_leaves {p leaf : Predicate} {lookup : String → Option FieldValue}
    (h : leaf ∈ p.leaves) (hleaf : leaf.eval lookup = false) : p.eval lookup = false := by
  rw [eval_eq_all_leaves, List.all_eq_false]
  exact ⟨leaf, h, by simp [hleaf]⟩

/-- Tautologies hold of everything, and nothing else does. -/
theorem isTautology_iff (p : Predicate) :
    p.isTautology = true ↔ ∀ lookup, p.eval lookup = true := by
  rw [isTautology_iff_leaves]
  constructor
  · intro hempty lookup
    rw [eval_eq_all_leaves, hempty]
    rfl
  · intro h
    rw [List.eq_nil_iff_forall_not_mem]
    intro leaf hleaf
    obtain ⟨field, op, value, rfl⟩ := exists_compare_of_mem_leaves p hleaf
    have hmissing : p.eval (fun _ => none) = false := eval_of_mem_leaves hleaf rfl
    rw [h] at hmissing
    cases hmissing

/-! ## Members -/

def members : Predicate → List Predicate
  | always => []
  | compare field op value => [compare field op value]
  | all members => members

theorem leaves_eq_leavesAll_members (p : Predicate) : p.leaves = leavesAll p.members := by
  cases p <;> simp [leaves, leavesAll, members]

theorem leavesAll_append (ps qs : List Predicate) :
    leavesAll (ps ++ qs) = leavesAll ps ++ leavesAll qs := by
  induction ps with
  | nil => rfl
  | cons p ps ih => rw [List.cons_append, leavesAll, leavesAll, ih, List.append_assoc]

section Conjunction

variable {p q : Predicate}

@[simp] theorem always_and (p : Predicate) : always.and p = p := rfl

@[simp] theorem and_always (p : Predicate) : p.and always = p := by
  cases p <;> rfl

/-- The conjunction of two predicates is one of their members, unless one of them is `always`. -/
theorem and_eq_all (hp : p ≠ always) (hq : q ≠ always) :
    p.and q = all (p.members ++ q.members) := by
  cases p <;> cases q <;> simp_all [and, members]

theorem and_ne_always (hp : p ≠ always) : p.and q ≠ always := by
  by_cases hq : q = always
  · rw [hq, and_always]
    exact hp
  · rw [and_eq_all hp hq]
    simp

theorem members_and (p q : Predicate) : (p.and q).members = p.members ++ q.members := by
  by_cases hp : p = always
  · rw [hp]
    rfl
  · by_cases hq : q = always
    · rw [hq, and_always]
      exact (List.append_nil _).symm
    · rw [and_eq_all hp hq]
      rfl

/-- In which order three predicates are joined makes no difference to the tree. -/
theorem and_assoc (p q r : Predicate) : (p.and q).and r = p.and (q.and r) := by
  by_cases hp : p = always
  · rw [hp, always_and, always_and]
  · by_cases hq : q = always
    · rw [hq, and_always, always_and]
    · by_cases hr : r = always
      · rw [hr, and_always, and_always]
      · rw [and_eq_all (and_ne_always hp) hr, and_eq_all hp (and_ne_always hq), members_and,
          members_and, List.append_assoc]

/-- A conjunction has the comparisons of the first predicate and then those of the second. -/
theorem leaves_and (p q : Predicate) : (p.and q).leaves = p.leaves ++ q.leaves := by
  rw [leaves_eq_leavesAll_members, members_and, leavesAll_append, ← leaves_eq_leavesAll_members,
    ← leaves_eq_leavesAll_members]

/-- A conjunction holds where both predicates do. -/
theorem eval_and (lookup : String → Option FieldValue) (p q : Predicate) :
    (p.and q).eval lookup = (p.eval lookup && q.eval lookup) := by
  rw [eval_eq_all_leaves, leaves_and, List.all_append, ← eval_eq_all_leaves,
    ← eval_eq_all_leaves]

end Conjunction

/-- On all trees, conjunction is associative and has `always` as its unit on both sides. It
holds where both predicates hold, and its comparisons are those of the first predicate
followed by those of the second, so none is lost, repeated or moved. The predicates that are
tautologies by their shape are exactly those that hold whatever values the fields have. -/
theorem conjunction_laws :
    (∀ p q r : Predicate, (p.and q).and r = p.and (q.and r)) ∧
    (∀ p : Predicate, always.and p = p ∧ p.and always = p) ∧
    (∀ (lookup : String → Option FieldValue) (p q : Predicate),
      (p.and q).eval lookup = (p.eval lookup && q.eval lookup)) ∧
    (∀ p q : Predicate, (p.and q).leaves = p.leaves ++ q.leaves) ∧
    ∀ p : Predicate, p.isTautology = true ↔ ∀ lookup, p.eval lookup = true := by
  refine ⟨and_assoc, ?_, eval_and, leaves_and, isTautology_iff⟩
  intro p
  exact ⟨always_and p, and_always p⟩

end EntityQuery.Predicate
