import Mathlib.Data.List.Sort
import EntityQuery.Entity.Directory
import EntityQuery.Proofs.Memory.History
import EntityQuery.Proofs.Memory.Repository
import EntityQuery.Proofs.Memory.Strictness
import EntityQuery.Proofs.Page
/-!
# Pages of the in-memory store

A listing is the strictly increasing list of the entities that satisfy a query. If the
entities are comparable by the keys, there is one such list and no other, because comparing
them is comparing ranks in a linear order. The pages cut it into slices of the size of a
page, so that every entity is on one page and on no other, and nothing depends on the order
in which the store happens to keep its entities.

Nothing makes the entities comparable in a type that is not declared by columns. If a field
has values of several forms, there need not be any listing.
-/

namespace EntityQuery

variable {α : Type} [Resource α]

/-- The entries are the entities that a test admits, each once, in strictly increasing order. -/
structure IsListing (admits : α → Prop) (keys : List SortKey) (entries : List α) : Prop where
  mem_iff : ∀ e, e ∈ entries ↔ admits e
  increasing : entries.Pairwise fun a b => compareEntities a b keys = .lt

namespace IsListing

variable {admits : α → Prop} {keys : List SortKey} {entries entries' : List α}

theorem nodup (h : IsListing admits keys entries) (hcomparable : AreComparable admits keys) :
    entries.Nodup := by
  obtain ⟨R, _, rank, hrank, _⟩ := exists_rank_of_comparable hcomparable
  apply h.increasing.imp_of_mem
  rintro a b ha hb hlt rfl
  have hadmitted := (h.mem_iff a).1 ha
  rw [hrank a a hadmitted hadmitted, cmp_self_eq_eq] at hlt
  cases hlt

/-- A listing is determined by what it lists. -/
theorem eq (h : IsListing admits keys entries) (h' : IsListing admits keys entries')
    (hcomparable : AreComparable admits keys) : entries' = entries := by
  obtain ⟨R, _, rank, hrank, _⟩ := exists_rank_of_comparable hcomparable
  have hperm : entries'.Perm entries :=
    (List.perm_ext_iff_of_nodup (h'.nodup hcomparable) (h.nodup hcomparable)).2 fun e =>
      (h'.mem_iff e).trans (h.mem_iff e).symm
  refine hperm.eq_of_pairwise ?_ h'.increasing h.increasing
  intro a b ha hb hab hba
  have hadmitted := (h'.mem_iff a).1 ha
  have hadmitted' := (h.mem_iff b).1 hb
  rw [hrank a b hadmitted hadmitted', cmp_eq_lt_iff] at hab
  rw [hrank b a hadmitted' hadmitted, cmp_eq_lt_iff] at hba
  exact absurd hba hab.asymm

/-- Entities that come one behind the other in a circle have no listing. -/
theorem false_of_circle (h : IsListing admits keys entries) {a b c : α} (ha : admits a)
    (hb : admits b) (hc : admits c) (hab : compareEntities a b keys = .lt)
    (hbc : compareEntities b c keys = .lt) (hca : compareEntities c a keys = .lt) : False := by
  have hbefore {i j : Nat} (hi : i < entries.length) (hj : j < entries.length)
      (hij : compareEntities entries[i] entries[j] keys = .lt) : i < j := by
    have hji : compareEntities entries[j] entries[i] keys = .gt := by
      rw [compareEntities_swap, hij]
      rfl
    obtain hlt | rfl | hgt := lt_trichotomy i j
    · exact hlt
    · rw [hij] at hji
      cases hji
    · rw [List.pairwise_iff_getElem.1 h.increasing j i hj hi hgt] at hji
      cases hji
  obtain ⟨i, hi, rfl⟩ := List.getElem_of_mem ((h.mem_iff a).2 ha)
  obtain ⟨j, hj, rfl⟩ := List.getElem_of_mem ((h.mem_iff b).2 hb)
  obtain ⟨k, hk, rfl⟩ := List.getElem_of_mem ((h.mem_iff c).2 hc)
  exact absurd ((hbefore hi hj hab).trans (hbefore hj hk hbc)) (hbefore hk hi hca).asymm

end IsListing

namespace MemoryStore

variable {store store' : MemoryStore α}

/-- The identifiers of what a store selects are different. -/
theorem nodup_ids_select (store : MemoryStore α) (p : Predicate) (keys : List SortKey) :
    ((store.select p keys).map Resource.id).Nodup := by
  have hperm : (store.select p keys).Perm (store.entities.filter p.holds) :=
    List.mergeSort_perm ..
  apply (hperm.map Resource.id).nodup_iff.2
  exact store.distinct.sublist (List.filter_sublist.map Resource.id)

theorem isListing_select {p : Predicate} {keys : List SortKey}
    (h : AreComparable (fun e => e ∈ store.entities ∧ p.holds e = true) keys) :
    IsListing (fun e => e ∈ store.entities ∧ p.holds e = true) keys (store.select p keys) := by
  obtain ⟨R, _, rank, hrank, hid⟩ := exists_rank_of_comparable h
  have hmem : ∀ e, e ∈ store.select p keys ↔ e ∈ store.entities ∧ p.holds e = true := by
    intro e
    rw [select, List.mem_mergeSort, List.mem_filter]
  refine ⟨hmem, ?_⟩
  -- On the entities of the store the comparison is the order of ranks, which sorting needs.
  have hsort : store.select p keys =
      (store.entities.filter p.holds).mergeSort fun a b => decide (rank a ≤ rank b) := by
    have hcongr := List.map_mergeSort (f := id) (l := store.entities.filter p.holds)
      (r := fun a b => compareEntities a b keys != .gt)
      (s := fun a b => decide (rank a ≤ rank b)) fun a ha b hb => by
        have hmatches := List.mem_filter.1 ha
        have hmatches' := List.mem_filter.1 hb
        rw [hrank a b hmatches hmatches', Bool.eq_iff_iff, bne_iff_ne, Ne, cmp_eq_gt_iff, not_lt]
        simp
    simpa [select] using hcongr
  have hsorted : (store.select p keys).Pairwise fun a b => decide (rank a ≤ rank b) = true := by
    rw [hsort]
    refine List.pairwise_mergeSort ?_ ?_ _
    · intro a b c hab hbc
      simp only [decide_eq_true_eq] at hab hbc ⊢
      exact hab.trans hbc
    · intro a b
      simpa using le_total (rank a) (rank b)
  have hids := List.pairwise_map.1 (store.nodup_ids_select p keys)
  apply (hsorted.and hids).imp_of_mem
  rintro a b ha hb ⟨hle, hne⟩
  have hlt : rank a < rank b :=
    lt_of_le_of_ne (of_decide_eq_true hle) fun heq => hne (hid a b heq)
  rw [hrank a b ((hmem a).1 ha) ((hmem b).1 hb), hlt.cmp_eq_lt]

/-- Stores with the same entities select alike, in whatever order they keep them. -/
theorem select_eq_select {p : Predicate} {keys : List SortKey}
    (h : AreComparable (fun e => e ∈ store.entities ∧ p.holds e = true) keys)
    (hsame : ∀ e, e ∈ store'.entities ↔ e ∈ store.entities) :
    store'.select p keys = store.select p keys := by
  have h' : AreComparable (fun e => e ∈ store'.entities ∧ p.holds e = true) keys :=
    h.mono fun e he => ⟨(hsame e).1 he.1, he.2⟩
  have hlisting' := isListing_select h'
  simp only [hsame] at hlisting'
  exact (isListing_select h).eq hlisting' h

end MemoryStore

/-! ## Slices -/

section Slices

variable {β : Type}

/-- The first slices of a list make up its beginning. -/
theorem flatMap_slices (entries : List β) (size n : Nat) :
    (List.range n).flatMap (fun i => (entries.drop (i * size)).take size) =
      entries.take (n * size) := by
  induction n with
  | zero => simp
  | succ n ih => rw [List.range_succ, List.flatMap_append, ih, Nat.succ_mul, List.take_add]; simp

/-- Slices up to the length of a list make up the whole list. -/
theorem flatMap_all_slices (entries : List β) {size : Nat} (hsize : 0 < size) :
    (List.range ((entries.length + size - 1) / size)).flatMap
      (fun i => (entries.drop (i * size)).take size) = entries := by
  rw [flatMap_slices, List.take_of_length_le]
  have hdiv := Nat.div_add_mod' (entries.length + size - 1) size
  have hmod := Nat.mod_lt (entries.length + size - 1) hsize
  omega

theorem slices_le_length (entries : List β) {size : Nat} (hsize : 0 < size) :
    (entries.length + size - 1) / size ≤ entries.length := by
  rw [Nat.div_le_iff_le_mul_add_pred hsize]
  have hle := Nat.le_mul_of_pos_left entries.length hsize
  omega

/-- Pages that answer with their slices make up the whole list. -/
theorem flatten_filterMap_slices (entries : List β) {size : Nat} (hsize : 0 < size)
    {content : Nat → Option (List β)}
    (h : ∀ i, i < entries.length → content i = some ((entries.drop (i * size)).take size)) :
    ((List.range ((entries.length + size - 1) / size)).filterMap content).flatten = entries := by
  have hslices : (List.range ((entries.length + size - 1) / size)).filterMap content =
      (List.range ((entries.length + size - 1) / size)).map
        fun i => (entries.drop (i * size)).take size := by
    rw [← List.filterMap_eq_map]
    refine List.filterMap_congr fun i hi => h i ?_
    exact (List.mem_range.1 hi).trans_le (slices_le_length entries hsize)
  rw [hslices, ← List.flatMap_def]
  exact flatMap_all_slices entries hsize

/-- A number of entries to pass over may be cut off at the length of the list. -/
theorem drop_min {entries : List β} {greatest : Nat} (h : entries.length ≤ greatest) (n : Nat) :
    entries.drop (min n greatest) = entries.drop n := by
  obtain hle | hgt := le_total n greatest
  · rw [min_eq_left hle]
  · rw [min_eq_right hgt, List.drop_eq_nil_of_le h, List.drop_eq_nil_of_le (h.trans hgt)]

/-- A slice has an entry if it begins before the end of the list. -/
theorem take_drop_ne_nil_iff (entries : List β) {size : Nat} (hsize : 0 < size) (i : Nat) :
    (entries.drop (i * size)).take size ≠ [] ↔ i * size < entries.length := by
  rw [← List.length_pos_iff, List.length_take, List.length_drop]
  omega

/-- A slice is full if the next one has an entry. -/
theorem length_take_drop_of_next (entries : List β) {size i : Nat}
    (h : (i + 1) * size < entries.length) :
    ((entries.drop (i * size)).take size).length = size := by
  rw [Nat.succ_mul] at h
  rw [List.length_take, List.length_drop]
  omega

/-- A slice that begins behind the last page is empty. -/
theorem drop_eq_nil_of_div_le (entries : List β) {size i : Nat} (hsize : 0 < size)
    (h : (entries.length + size - 1) / size ≤ i) : entries.drop (i * size) = [] := by
  rw [List.drop_eq_nil_iff]
  have hlt := (Nat.div_le_iff_le_mul_add_pred hsize).1 h
  rw [mul_comm] at hlt
  omega

end Slices

namespace MemoryStore

theorem length_select_le (store : MemoryStore α) (p : Predicate) (keys : List SortKey) :
    (store.select p keys).length ≤ store.size := by
  rw [select, List.length_mergeSort]
  exact List.length_filter_le ..

theorem execute_eq (store : MemoryStore α) (q : CompiledQuery) {page : PageSpec}
    (hsort : page.validateSort (Resource.descriptor α) = .ok ())
    (hlength : (store.select q.predicate page.keys).length < 2 ^ 63) :
    ∃ total : UInt64, total.toNat = (store.select q.predicate page.keys).length ∧
      store.execute q page = .ok
        { content := ((store.select q.predicate page.keys).drop
            (page.index.toNat * page.size.toNat)).take page.size.toNat
          total
          index := page.index
          size := page.size } := by
  have hoffset : (store.select q.predicate page.keys).drop page.offset.toNat =
      (store.select q.predicate page.keys).drop (page.index.toNat * page.size.toNat) := by
    rw [PageSpec.offset, Saturating.toNat_mul]
    exact drop_min (by omega) _
  refine ⟨Saturating.ofNat (store.select q.predicate page.keys).length, ?_, ?_⟩
  · rw [Saturating.toNat_ofNat]
    omega
  · simp only [execute, hsort, PageSpec.cut, hoffset]

/-- The entities on the page with a number, if the page is answered. -/
def contentAt? (store : MemoryStore α) (q : CompiledQuery) (size : Int64)
    (direction : Option Direction) (sort : Option (List String)) (i : Nat) : Option (List α) := do
  let page ← (PageSpec.assemble (Resource.descriptor α) (.ofNat i) size direction sort).toOption
  let answer ← (store.execute q page).toOption
  return answer.content

section Answers

variable {store : MemoryStore α} {q : CompiledQuery} {size : Int64}
variable {direction : Option Direction} {sort : Option (List String)}

/-- The answer to a page that was assembled from declared keys. -/
theorem execute_of_assemble {index : Int64} {page : PageSpec} (hcount : store.size < 2 ^ 63)
    (hdeclared : ∀ key ∈ PageSpec.sortKeys (Resource.descriptor α) direction (sort.getD []),
      (Resource.descriptor α).contains key.field = true)
    (hpage : PageSpec.assemble (Resource.descriptor α) index size direction sort = .ok page) :
    let entries := store.select q.predicate
      (PageSpec.sortKeys (Resource.descriptor α) direction (sort.getD []))
    ∃ total : UInt64, total.toNat = entries.length ∧ store.execute q page = .ok
      { content := (entries.drop (index.toInt.toNat * size.toInt.toNat)).take size.toInt.toNat
        total
        index := page.index
        size := page.size } := by
  obtain ⟨hindex, hwidth, hkeys⟩ := PageSpec.of_assemble hpage
  have hsort : page.validateSort (Resource.descriptor α) = .ok () :=
    PageSpec.validateSort_of_declared (hkeys ▸ hdeclared)
  have hexecute :=
    store.execute_eq q hsort ((store.length_select_le q.predicate page.keys).trans_lt hcount)
  rw [hkeys, hindex, hwidth] at hexecute
  exact hexecute

/-- Every page that can be asked for is answered with its slice. -/
theorem contentAt?_eq (hsize : 1 ≤ size.toInt) (hcount : store.size < 2 ^ 63)
    (hdeclared : ∀ key ∈ PageSpec.sortKeys (Resource.descriptor α) direction (sort.getD []),
      (Resource.descriptor α).contains key.field = true) {i : Nat} (hi : i < 2 ^ 63) :
    store.contentAt? q size direction sort i =
      some (((store.select q.predicate
        (PageSpec.sortKeys (Resource.descriptor α) direction (sort.getD []))).drop
          (i * size.toInt.toNat)).take size.toInt.toNat) := by
  obtain ⟨page, hpage, hindex⟩ :=
    PageSpec.exists_assemble (Resource.descriptor α) direction sort hsize hi
  obtain ⟨total, _, hexecute⟩ := execute_of_assemble (q := q) hcount hdeclared hpage
  have hi' : (Int64.ofNat i).toInt.toNat = i := (PageSpec.of_assemble hpage).1.symm.trans hindex
  rw [hi'] at hexecute
  simp [contentAt?, hpage, hexecute, Except.toOption]

end Answers

/-- The number of a listing's entries is the number of identifiers whose last version the
predicate admits. -/
theorem length_eq_of_lastVersions {writes entries : List α} {p : Predicate}
    (hids : (entries.map Resource.id).Nodup)
    (hmem : ∀ e, e ∈ entries ↔
      lastVersion? writes (Resource.id e) = some e ∧ p.holds e = true) :
    entries.length = ((writes.map Resource.id).dedup.filter fun id =>
      (lastVersion? writes id).any p.holds).length := by
  rw [← List.length_map Resource.id]
  apply List.Perm.length_eq
  refine (List.perm_ext_iff_of_nodup hids ?_).2 ?_
  · exact (List.nodup_dedup _).filter _
  · intro id
    rw [List.mem_filter, List.mem_dedup, ← exists_lastVersion?_iff writes, List.mem_map]
    constructor
    · rintro ⟨e, he, rfl⟩
      obtain ⟨hlast, hholds⟩ := (hmem e).1 he
      exact ⟨⟨e, hlast⟩, by rw [hlast]; exact hholds⟩
    · rintro ⟨⟨e, hlast⟩, hany⟩
      obtain ⟨_, rfl⟩ := mem_of_lastVersion? hlast
      rw [hlast] at hany
      exact ⟨e, (hmem e).2 ⟨hlast, hany⟩, rfl⟩

/-- Stores with the same entities answer alike. -/
theorem execute_eq_execute {store store' : MemoryStore α} {q : CompiledQuery} {page : PageSpec}
    (h : AreComparable (fun e => e ∈ store.entities ∧ q.predicate.holds e = true) page.keys)
    (hsame : ∀ e, e ∈ store'.entities ↔ e ∈ store.entities) :
    store'.execute q page = store.execute q page := by
  simp only [execute, select_eq_select h hsame]

end MemoryStore

end EntityQuery
