import EntityQuery.CompiledQuery
import EntityQuery.Page
import EntityQuery.Resource
/-!
# The in-memory store

The last version of every entity that was saved, by identifier. A listing filters
by the predicate, sorts by the keys of the page and then by identifier, and takes
the page out of the result. Null is the greatest value of every key.

Comparing entities need not be a total order, and what sorts them may then fail.
The store stands behind a lock. A save that fails while it holds the lock poisons
it, and no call gets the store from there on.
-/

namespace EntityQuery

/-- The order of two values of a key; null is the greatest. -/
def FieldValue.compareNullsLast (a b : FieldValue) : Ordering :=
  match a.isNull, b.isNull with
  | true, true => .eq
  | true, false => .gt
  | false, true => .lt
  | false, false => (a.compare? b).getD .eq

section

variable {α : Type} [Resource α]

/-- The value by which an entity is sorted; a missing field is null. -/
def sortValue (e : α) (field : String) : FieldValue :=
  (Resource.value? e field).getD .null

/-- The order of two entities by the keys, then by identifier. -/
def compareEntities (a b : α) : List SortKey → Ordering
  | [] => compare (Resource.id a) (Resource.id b)
  | key :: rest =>
    let order := (sortValue a key.field).compareNullsLast (sortValue b key.field)
    (key.direction.apply order).then (compareEntities a b rest)

def Predicate.holds (p : Predicate) (e : α) : Bool :=
  p.eval (Resource.value? e)

end

/-- Puts an entity in place of the one with its identifier, or at the end. -/
def putEntity {α : Type} [Resource α] (e : α) : List α → List α
  | [] => [e]
  | x :: rest => if Resource.id x = Resource.id e then e :: rest else x :: putEntity e rest

/-- Putting an entity keeps the order of the identifiers; a new one comes last. -/
theorem ids_putEntity {α : Type} [Resource α] (e : α) (entities : List α) :
    (putEntity e entities).map Resource.id =
      if Resource.id e ∈ entities.map Resource.id then entities.map Resource.id
      else entities.map Resource.id ++ [Resource.id e] := by
  induction entities with
  | nil => simp [putEntity]
  | cons x rest ih =>
    by_cases h : Resource.id x = Resource.id e
    · simp [putEntity, h]
    · have hne : Resource.id e ≠ Resource.id x := fun heq => h heq.symm
      have hput : putEntity e (x :: rest) = x :: putEntity e rest := if_neg h
      rw [hput, List.map_cons, ih, List.map_cons]
      by_cases hmem : Resource.id e ∈ rest.map Resource.id
      · rw [if_pos hmem, if_pos (List.mem_cons_of_mem _ hmem)]
      · have hnot : Resource.id e ∉ Resource.id x :: rest.map Resource.id := by
          simp only [List.mem_cons, hne, hmem, or_self, not_false_eq_true]
        rw [if_neg hmem, if_neg hnot, List.cons_append]

/-- Putting an entity keeps the identifiers different. -/
theorem nodup_ids_putEntity {α : Type} [Resource α] (e : α) {entities : List α}
    (h : (entities.map Resource.id).Nodup) : ((putEntity e entities).map Resource.id).Nodup := by
  rw [ids_putEntity]
  split
  · exact h
  · next hnot =>
    refine List.nodup_append.2 ⟨h, by simp, ?_⟩
    intro i hi j hj heq
    rw [List.mem_singleton] at hj
    exact hnot (hj ▸ heq ▸ hi)

/-- The last version of every entity, in the order of first saves. -/
structure MemoryStore (α : Type) [Resource α] where
  entities : List α
  distinct : (entities.map Resource.id).Nodup

namespace MemoryStore

def backend : String := "in-memory"

variable {α : Type} [Resource α]

def empty : MemoryStore α :=
  ⟨[], List.nodup_nil⟩

/-- Puts an entity in place of the one with its identifier. -/
def save (store : MemoryStore α) (e : α) : MemoryStore α :=
  ⟨putEntity e store.entities, nodup_ids_putEntity e store.distinct⟩

/-- The store after saving a list of entities in order. -/
def ofList (entities : List α) : MemoryStore α :=
  entities.foldl save empty

def size (store : MemoryStore α) : Nat :=
  store.entities.length

/-- The entities that satisfy a predicate, in the order of the keys. -/
def select (store : MemoryStore α) (p : Predicate) (keys : List SortKey) : List α :=
  (store.entities.filter p.holds).mergeSort fun a b => compareEntities a b keys != .gt

def execute (store : MemoryStore α) (q : CompiledQuery) (page : PageSpec) :
    Except QueryError (Page α) :=
  match page.validateSort (Resource.descriptor α) with
  | .error e => .error (.validation e)
  | .ok () => .ok (page.cut (store.select q.predicate page.keys))

end MemoryStore

/-! ## Sorting -/

/-- A comparison is a total order of the entries of a list. -/
structure IsTotalOn {β : Type} (order : β → β → Ordering) (entries : List β) : Prop where
  swap : ∀ a ∈ entries, ∀ b ∈ entries, order b a = (order a b).swap
  trans : ∀ a ∈ entries, ∀ b ∈ entries, ∀ c ∈ entries,
    order a b ≠ .gt → order b c ≠ .gt → order a c ≠ .gt

/-- What sorts a list by a comparison. If this is a total order of the entries, they are sorted and
equal ones stay in their order. Otherwise they come in any order, or sorting fails. -/
structure Sorter (β : Type) where
  sort? : (β → β → Ordering) → List β → Option (List β)
  perm : ∀ order entries sorted, sort? order entries = some sorted → sorted.Perm entries
  stable : ∀ order entries, IsTotalOn order entries →
    sort? order entries = some (entries.mergeSort fun a b => order a b != .gt)

/-- Sorts by merging, which never fails. -/
def Sorter.merging (β : Type) : Sorter β where
  sort? order entries := some (entries.mergeSort fun a b => order a b != .gt)
  perm _ _ _ h := Option.some.inj h ▸ List.mergeSort_perm ..
  stable _ _ _ := rfl

/-! ## The lock -/

/-- A store behind its lock. -/
structure MemoryRepository (α : Type) [Resource α] where
  store : MemoryStore α
  poisoned : Bool

namespace MemoryRepository

/-- What a call is told that does not get the lock. -/
def refusal (access : String) : StorageError :=
  .poisoned ("Failed to acquire " ++ access ++
    " lock: poisoned lock: another task failed inside")

variable {α : Type} [Resource α]

def ofList (entities : List α) : MemoryRepository α :=
  ⟨.ofList entities, false⟩

/-- Saves an entity. It is copied behind the lock, and if that fails there is no answer. -/
def save (repository : MemoryRepository α) (copies : α → Bool) (e : α) :
    Option (Except QueryError α) × MemoryRepository α :=
  if repository.poisoned then (some (.error (.storage (refusal "write"))), repository)
  else if copies e then (some (.ok e), { repository with store := repository.store.save e })
  else (none, { repository with poisoned := true })

def size (repository : MemoryRepository α) : Except QueryError Nat :=
  if repository.poisoned then .error (.storage (refusal "read")) else .ok repository.store.size

/-- One page of the entities that satisfy a query. There is no answer if they cannot be sorted. -/
def execute (repository : MemoryRepository α) (sorter : Sorter α) (q : CompiledQuery)
    (page : PageSpec) : Option (Except QueryError (Page α)) :=
  match page.validateSort (Resource.descriptor α) with
  | .error e => some (.error (.validation e))
  | .ok () =>
    if repository.poisoned then some (.error (.storage (refusal "read")))
    else
      let matching := repository.store.entities.filter q.predicate.holds
      (sorter.sort? (compareEntities · · page.keys) matching).map fun selected =>
        .ok (page.cut selected)

end MemoryRepository

end EntityQuery
