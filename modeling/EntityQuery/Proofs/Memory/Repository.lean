import EntityQuery.Proofs.Memory.History
import EntityQuery.Proofs.Memory.Order
/-!
# The in-memory store behind its lock

Behind a lock that is not poisoned a page is cut out of the entities that satisfy the query, in
whatever order they are sorted. If comparing them is a total order, the page is the one of the
store. A poisoned lock is never given out again, and the saves after the one that poisoned it
change nothing.
-/

namespace EntityQuery

variable {α : Type} [Resource α]

theorem AreComparable.isTotalOn {keys : List SortKey} {entries : List α}
    (h : AreComparable (· ∈ entries) keys) : IsTotalOn (compareEntities · · keys) entries := by
  obtain ⟨R, _, rank, hrank, -⟩ := exists_rank_of_comparable h
  constructor
  · intro a ha b hb
    rw [hrank a b ha hb, hrank b a hb ha, cmp_swap]
  · intro a ha b hb c hc hab hbc
    rw [hrank a b ha hb, Ne, cmp_eq_gt_iff, not_lt] at hab
    rw [hrank b c hb hc, Ne, cmp_eq_gt_iff, not_lt] at hbc
    rw [hrank a c ha hc, Ne, cmp_eq_gt_iff, not_lt]
    exact hab.trans hbc

theorem not_isTotalOn_of_circle {β : Type} {order : β → β → Ordering} {entries : List β}
    {a b c : β} (ha : a ∈ entries) (hb : b ∈ entries) (hc : c ∈ entries) (hab : order a b = .lt)
    (hbc : order b c = .lt) (hca : order c a = .lt) : ¬ IsTotalOn order entries := by
  intro htotal
  have hac : order a c = .gt := by
    rw [htotal.swap c hc a ha, hca]
    rfl
  exact htotal.trans a ha b hb c hc (by simp [hab]) (by simp [hbc]) hac

open Classical in
/-- Sorts by merging, but fails if the comparison is no total order. -/
noncomputable def Sorter.exacting (β : Type) : Sorter β where
  sort? order entries :=
    if IsTotalOn order entries then some (entries.mergeSort fun a b => order a b != .gt) else none
  perm _ _ _ h := by
    split at h
    · exact Option.some.inj h ▸ List.mergeSort_perm ..
    · cases h
  stable _ _ htotal := if_pos htotal

namespace MemoryRepository

/-! ## Pages -/

section Pages

variable {repository : MemoryRepository α} {sorter : Sorter α} {q : CompiledQuery}
  {page : PageSpec} {e : ValidationError}

/-- The sort fields are checked in front of the lock. -/
theorem execute_of_refused (h : page.validateSort (Resource.descriptor α) = .error e) :
    repository.execute sorter q page = some (.error (.validation e)) := by
  rw [execute, h]

theorem execute_of_poisoned (h : page.validateSort (Resource.descriptor α) = .ok ())
    (hpoisoned : repository.poisoned = true) :
    repository.execute sorter q page = some (.error (.storage (refusal "read"))) := by
  rw [execute, h]
  exact if_pos hpoisoned

/-- Every answer from behind the lock is a page of the entities that satisfy the query. -/
theorem exists_perm_of_execute {result : Except QueryError (Page α)}
    (h : page.validateSort (Resource.descriptor α) = .ok ())
    (hpoisoned : repository.poisoned = false)
    (hresult : repository.execute sorter q page = some result) :
    ∃ selected, selected.Perm (repository.store.entities.filter q.predicate.holds) ∧
      result = .ok (page.cut selected) := by
  simp only [execute, h, hpoisoned, Bool.false_eq_true, if_false, Option.map_eq_some_iff] at hresult
  obtain ⟨selected, hsort, rfl⟩ := hresult
  exact ⟨selected, sorter.perm _ _ _ hsort, rfl⟩

/-- By a total order the answer is the one of the store. -/
theorem execute_of_isTotalOn (hpoisoned : repository.poisoned = false)
    (htotal : IsTotalOn (compareEntities · · page.keys)
      (repository.store.entities.filter q.predicate.holds)) :
    repository.execute sorter q page = some (repository.store.execute q page) := by
  rw [execute, MemoryStore.execute]
  cases page.validateSort (Resource.descriptor α) with
  | error e => rfl
  | ok =>
      simp only [hpoisoned, Bool.false_eq_true, if_false, sorter.stable _ _ htotal]
      rfl

end Pages

/-! ## Saves -/

def afterSaves (repository : MemoryRepository α) (copies : α → Bool) (saves : List α) :
    MemoryRepository α :=
  saves.foldl (fun repository e => (repository.save copies e).2) repository

theorem save_of_poisoned {repository : MemoryRepository α} (h : repository.poisoned = true)
    (copies : α → Bool) (e : α) :
    repository.save copies e = (some (.error (.storage (refusal "write"))), repository) :=
  if_pos h

theorem afterSaves_of_poisoned {repository : MemoryRepository α} (h : repository.poisoned = true)
    (copies : α → Bool) (saves : List α) : repository.afterSaves copies saves = repository := by
  induction saves with
  | nil => rfl
  | cons e saves ih =>
      rw [afterSaves, List.foldl_cons, save_of_poisoned h]
      exact ih

/-- The saves in front of the first entity that cannot be copied are kept, and that one poisons the
lock. -/
theorem afterSaves_eq (copies : α → Bool) (store : MemoryStore α) (saves : List α) :
    afterSaves ⟨store, false⟩ copies saves =
      ⟨(saves.takeWhile copies).foldl MemoryStore.save store, !saves.all copies⟩ := by
  induction saves generalizing store with
  | nil => rfl
  | cons e saves ih =>
      rw [afterSaves, List.foldl_cons, save]
      by_cases hcopies : copies e = true
      · rw [List.takeWhile_cons_of_pos hcopies, List.all_cons, hcopies, Bool.true_and]
        exact ih (store.save e)
      · rw [Bool.not_eq_true] at hcopies
        rw [List.takeWhile_cons_of_neg (by simp [hcopies]), List.all_cons, hcopies]
        exact afterSaves_of_poisoned rfl copies saves

/-- If all entities are copied, the saves are those of the store. -/
theorem afterSaves_of_copies {copies : α → Bool} {saves : List α} (initial : List α)
    (h : ∀ e ∈ saves, copies e = true) :
    (ofList initial).afterSaves copies saves = ⟨MemoryStore.afterSaves initial saves, false⟩ := by
  have hkept : saves.takeWhile copies = saves := List.takeWhile_eq_self_iff.2 h
  have hall : saves.all copies = true := List.all_eq_true.2 h
  rw [ofList, afterSaves_eq, hkept, hall]
  rfl

end MemoryRepository

end EntityQuery
