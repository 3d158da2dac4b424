/-!
# Tables that keep the order of first insertion

A table is a list of pairs with one pair for each key. Writing an existing key
changes the value where it stands, and writing a new key adds a pair at the end.
Descriptor tables, JSON objects, documents and the in-memory store are all read
and written through these operations.
-/

namespace EntityQuery.Assoc

variable {κ : Type u} {α : Type v} [DecidableEq κ]

/-- The value under `key`. -/
def lookup (key : κ) (table : List (κ × α)) : Option α :=
  table.lookup key

def contains (key : κ) (table : List (κ × α)) : Bool :=
  (lookup key table).isSome

/-- Puts `value` under `key`, in place if the key is there and at the end if not. -/
def insert (key : κ) (value : α) : List (κ × α) → List (κ × α)
  | [] => [(key, value)]
  | (k, a) :: rest =>
    if k = key then (k, value) :: rest else (k, a) :: insert key value rest

/-- Removes `key`; the other pairs keep their order. -/
def erase (key : κ) (table : List (κ × α)) : List (κ × α) :=
  table.filter fun pair => pair.1 ≠ key

/-- The table written by inserting the pairs one after the other. -/
def ofList (pairs : List (κ × α)) : List (κ × α) :=
  pairs.foldl (fun table pair => insert pair.1 pair.2 table) []

@[simp] theorem lookup_nil (key : κ) : lookup key ([] : List (κ × α)) = none :=
  rfl

theorem lookup_cons (key k : κ) (a : α) (rest : List (κ × α)) :
    lookup key ((k, a) :: rest) = if k = key then some a else lookup key rest := by
  by_cases hk : k = key
  · subst hk
    rw [lookup, List.lookup_cons_self, if_pos rfl]
  · rw [lookup, List.lookup_cons, beq_false_of_ne (Ne.symm hk), if_neg hk]
    rfl

/-- Reading after a write sees the write at its own key and nothing elsewhere. -/
theorem lookup_insert (key key' : κ) (value : α) (table : List (κ × α)) :
    lookup key' (insert key value table) =
      if key = key' then some value else lookup key' table := by
  induction table with
  | nil => simp [insert, lookup_cons]
  | cons pair rest ih =>
    obtain ⟨k, a⟩ := pair
    by_cases hk : k = key
    · by_cases hk' : key = key' <;> simp_all [insert, lookup_cons]
    · by_cases hk' : k = key' <;> simp_all [insert, lookup_cons]
      intro h
      exact absurd h.symm hk

def keys (table : List (κ × α)) : List κ :=
  table.map Prod.fst

/-- A write keeps the order of the keys; a new key comes last. -/
theorem keys_insert (key : κ) (value : α) (table : List (κ × α)) :
    keys (insert key value table) =
      if key ∈ keys table then keys table else keys table ++ [key] := by
  induction table with
  | nil => simp [insert, keys]
  | cons pair rest ih =>
    obtain ⟨k, a⟩ := pair
    by_cases hk : k = key
    · simp [insert, keys, hk]
    · have hne : key ≠ k := fun h => hk h.symm
      have hinsert : insert key value ((k, a) :: rest) = (k, a) :: insert key value rest :=
        if_neg hk
      have hmem : key ∈ keys ((k, a) :: rest) ↔ key ∈ keys rest := by simp [keys, hne]
      have hcons (tail : List (κ × α)) : keys ((k, a) :: tail) = k :: keys tail := rfl
      rw [hinsert, hcons, ih]
      by_cases h : key ∈ keys rest
      · rw [if_pos h, if_pos (hmem.2 h), hcons]
      · rw [if_neg h, if_neg (mt hmem.1 h), hcons, List.cons_append]

/-- A write keeps the keys different. -/
theorem nodup_keys_insert (key : κ) (value : α) {table : List (κ × α)}
    (h : (keys table).Nodup) : (keys (insert key value table)).Nodup := by
  rw [keys_insert]
  split
  · exact h
  · next hnot =>
    refine List.nodup_append.2 ⟨h, by simp, ?_⟩
    intro k hk k' hk' heq
    rw [List.mem_singleton] at hk'
    exact hnot (hk' ▸ heq ▸ hk)

end EntityQuery.Assoc
