import Mathlib.Data.List.Dedup
import Mathlib.Data.List.Induction
import EntityQuery.Store.Memory
/-!
# What the in-memory store holds

The store is opened, possibly with a list of entities, and then entities are saved one
after the other. At any time it holds the last version that was written for each
identifier, and nothing else. Which entities it holds therefore does not depend on the
order in which entities of different identifiers were written.
-/

namespace EntityQuery

variable {α : Type} [Resource α]

def lastVersion? (writes : List α) (id : Uuid) : Option α :=
  (writes.filter fun e => Resource.id e = id).getLast?

theorem lastVersion?_append_singleton (writes : List α) (e : α) (id : Uuid) :
    lastVersion? (writes ++ [e]) id =
      if Resource.id e = id then some e else lastVersion? writes id := by
  simp only [lastVersion?]
  rw [List.filter_append]
  by_cases h : Resource.id e = id
  · simp [h]
  · simp [h]

/-- The last version of an identifier has the identifier and was written. -/
theorem mem_of_lastVersion? {writes : List α} {id : Uuid} {e : α}
    (h : lastVersion? writes id = some e) : e ∈ writes ∧ Resource.id e = id := by
  have hmem := List.mem_of_getLast? h
  simpa using hmem

theorem exists_lastVersion?_iff (writes : List α) (id : Uuid) :
    (∃ e, lastVersion? writes id = some e) ↔ id ∈ writes.map Resource.id := by
  constructor
  · rintro ⟨e, h⟩
    obtain ⟨hmem, rfl⟩ := mem_of_lastVersion? h
    exact List.mem_map_of_mem hmem
  · intro h
    obtain ⟨e, hmem, rfl⟩ := List.mem_map.1 h
    have hne : writes.filter (fun e' => Resource.id e' = Resource.id e) ≠ [] :=
      List.ne_nil_of_mem (List.mem_filter.2 ⟨hmem, by simp⟩)
    exact ⟨_, List.getLast?_eq_some_getLast hne⟩

/-- Putting an entity takes the entity with its identifier out and leaves all others. -/
theorem mem_putEntity {entities : List α} (e x : α) (h : (entities.map Resource.id).Nodup) :
    x ∈ putEntity e entities ↔ x = e ∨ x ∈ entities ∧ Resource.id x ≠ Resource.id e := by
  induction entities with
  | nil => simp [putEntity]
  | cons y rest ih =>
      rw [List.map_cons, List.nodup_cons] at h
      by_cases hid : Resource.id y = Resource.id e
      · have hrest : ∀ x ∈ rest, Resource.id x ≠ Resource.id e := fun x hx heq =>
          h.1 (hid.trans heq.symm ▸ List.mem_map_of_mem hx)
        rw [putEntity, if_pos hid, List.mem_cons, List.mem_cons]
        constructor
        · rintro (rfl | hx)
          · exact .inl rfl
          · exact .inr ⟨.inr hx, hrest x hx⟩
        · rintro (rfl | ⟨rfl | hx, hne⟩)
          · exact .inl rfl
          · exact absurd hid hne
          · exact .inr hx
      · rw [putEntity, if_neg hid, List.mem_cons, ih h.2, List.mem_cons]
        constructor
        · rintro (rfl | rfl | ⟨hx, hne⟩)
          · exact .inr ⟨.inl rfl, hid⟩
          · exact .inl rfl
          · exact .inr ⟨.inr hx, hne⟩
        · rintro (rfl | ⟨rfl | hx, hne⟩)
          · exact .inr (.inl rfl)
          · exact .inl rfl
          · exact .inr (.inr ⟨hx, hne⟩)

namespace MemoryStore

/-- A store that was opened with a list of entities, after further entities were saved. -/
def afterSaves (initial saves : List α) : MemoryStore α :=
  saves.foldl save (ofList initial)

theorem afterSaves_eq_ofList (initial saves : List α) :
    afterSaves initial saves = ofList (initial ++ saves) := by
  rw [ofList, List.foldl_append]
  rfl

/-- The invariant of a history of writes: the store holds the last versions. -/
theorem mem_ofList_iff (writes : List α) (e : α) :
    e ∈ (ofList writes).entities ↔ lastVersion? writes (Resource.id e) = some e := by
  induction writes using List.reverseRecOn with
  | nil => simp [ofList, empty, lastVersion?]
  | append_singleton writes w ih =>
      have hstep : (ofList (writes ++ [w])).entities = putEntity w (ofList writes).entities := by
        rw [ofList, List.foldl_append]
        rfl
      rw [hstep, mem_putEntity w e (ofList writes).distinct, ih, lastVersion?_append_singleton]
      by_cases hid : Resource.id w = Resource.id e
      · rw [if_pos hid, Option.some.injEq]
        constructor
        · rintro (rfl | ⟨_, hne⟩)
          · rfl
          · exact absurd hid.symm hne
        · rintro rfl
          exact .inl rfl
      · rw [if_neg hid]
        constructor
        · rintro (rfl | ⟨h, _⟩)
          · exact absurd rfl hid
          · exact h
        · intro h
          exact .inr ⟨h, fun heq => hid heq.symm⟩

/-- After any saves, the store holds the last version of every identifier. -/
theorem mem_afterSaves_iff (initial saves : List α) (e : α) :
    e ∈ (afterSaves initial saves).entities ↔
      lastVersion? (initial ++ saves) (Resource.id e) = some e := by
  rw [afterSaves_eq_ofList, mem_ofList_iff]

end MemoryStore

end EntityQuery
