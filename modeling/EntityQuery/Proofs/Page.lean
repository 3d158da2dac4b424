import Mathlib.Algebra.Group.Int.Defs
import Mathlib.Algebra.Group.Nat.Defs
import EntityQuery.Page
/-!
# Which pages are accepted

A page is assembled if its index is not negative and its size is at least one, and it then
has the numbers and the keys that were asked for. A store accepts its keys if all of them
are declared.
-/

namespace EntityQuery.PageSpec

variable {d : Descriptor} {index size : Int64} {direction : Option Direction}
variable {sort : Option (List String)} {page : PageSpec}

/-- An assembled page has the numbers that were asked for. -/
theorem of_assemble (h : assemble d index size direction sort = .ok page) :
    page.index.toNat = index.toInt.toNat ∧ page.size.toNat = size.toInt.toNat ∧
      page.keys = sortKeys d direction (sort.getD []) := by
  simp only [assemble] at h
  split at h
  · cases h
  split at h
  · cases h
  cases h
  have hindex := index.toInt_lt
  have hsize := size.toInt_lt
  refine ⟨?_, ?_, rfl⟩ <;>
    · simp only [Saturating.ofInt64, UInt64.toNat_ofNat']
      omega

theorem sortKeys_of_ne_nil {fields : List String} (h : fields ≠ []) :
    sortKeys d direction fields = fields.map fun f => ⟨f, direction.getD .ascending⟩ := by
  cases fields with
  | nil => exact absurd rfl h
  | cons field rest => rfl

theorem exists_direction_of_assemble (h : assemble d index size direction sort = .ok page) :
    ∃ common, ∀ key ∈ page.keys, key.direction = common := by
  obtain ⟨-, -, hkeys⟩ := of_assemble h
  rw [hkeys]
  cases hsort : sort.getD [] with
  | nil =>
      refine ⟨.ascending, ?_⟩
      intro key hkey
      rw [List.mem_singleton.1 hkey]
  | cons field rest =>
      refine ⟨direction.getD .ascending, ?_⟩
      intro key hkey
      obtain ⟨f, _, rfl⟩ := List.mem_map.1 hkey
      rfl

/-- A field that is asked for again has a key that is among those before it. -/
theorem keys_of_repeated {before after : List String} {field : String} {page' : PageSpec}
    (h : assemble d index size direction (some (before ++ field :: after)) = .ok page)
    (h' : assemble d index size direction (some (before ++ after)) = .ok page')
    (hfield : field ∈ before) :
    ∃ front key back, page.keys = front ++ key :: back ∧ page'.keys = front ++ back ∧
      key ∈ front := by
  obtain ⟨-, -, hkeys⟩ := of_assemble h
  obtain ⟨-, -, hkeys'⟩ := of_assemble h'
  have hne : before ++ after ≠ [] := List.append_ne_nil_of_left_ne_nil (List.ne_nil_of_mem hfield) _
  rw [Option.getD_some, sortKeys_of_ne_nil (by simp), List.map_append, List.map_cons] at hkeys
  rw [Option.getD_some, sortKeys_of_ne_nil hne, List.map_append] at hkeys'
  exact ⟨_, _, _, hkeys, hkeys', List.mem_map_of_mem hfield⟩

theorem assemble_of_bad (d : Descriptor) (direction : Option Direction)
    (sort : Option (List String)) (h : index.toInt < 0 ∨ size.toInt < 1) :
    ∃ reason, assemble d index size direction sort = .error (.invalidPage index size reason) := by
  by_cases hindex : index.toInt < 0
  · exact ⟨_, if_pos hindex⟩
  · have hsize : size.toInt < 1 := h.resolve_left hindex
    rw [assemble, if_neg hindex, if_pos hsize]
    exact ⟨_, rfl⟩

theorem assemble_of_good (d : Descriptor) (direction : Option Direction)
    (sort : Option (List String)) (hindex : 0 ≤ index.toInt) (hsize : 1 ≤ size.toInt) :
    ∃ page, assemble d index size direction sort = .ok page := by
  rw [assemble, if_neg (by omega), if_neg (by omega)]
  exact ⟨_, rfl⟩

theorem assemble_iff (d : Descriptor) (direction : Option Direction)
    (sort : Option (List String)) :
    (∃ page, assemble d index size direction sort = .ok page) ↔
      0 ≤ index.toInt ∧ 1 ≤ size.toInt := by
  constructor
  · rintro ⟨page, hpage⟩
    have hgood : ¬(index.toInt < 0 ∨ size.toInt < 1) := by
      intro hbad
      obtain ⟨reason, hrefused⟩ := assemble_of_bad d direction sort hbad
      rw [hrefused] at hpage
      cases hpage
    omega
  · rintro ⟨hindex, hsize⟩
    exact assemble_of_good d direction sort hindex hsize

theorem exists_assemble (d : Descriptor) (direction : Option Direction)
    (sort : Option (List String)) (hsize : 1 ≤ size.toInt) {i : Nat} (hi : i < 2 ^ 63) :
    ∃ page, assemble d (Int64.ofNat i) size direction sort = .ok page ∧
      page.index.toNat = i := by
  have hindex : (Int64.ofNat i).toInt = i := Int64.toInt_ofNat_of_lt hi
  obtain ⟨page, hpage⟩ := assemble_of_good d direction sort (hindex ▸ Int.natCast_nonneg i) hsize
  refine ⟨page, hpage, ?_⟩
  rw [(of_assemble hpage).1, hindex]
  rfl

/-! ## What is asked of a server -/

theorem numbers_of_assemble (h : assemble d index size direction sort = .ok page) :
    (page.index.toNat : Int) = index.toInt ∧ (page.size.toNat : Int) = size.toInt := by
  obtain ⟨hindex, hsize⟩ := (assemble_iff d direction sort).1 ⟨page, h⟩
  obtain ⟨hpageIndex, hpageSize, -⟩ := of_assemble h
  omega

theorem limit_of_assemble (h : assemble d index size direction sort = .ok page) :
    page.limit.toInt = size.toInt := by
  obtain ⟨-, hsize⟩ := numbers_of_assemble h
  have hbound := size.toInt_lt
  rw [limit, Saturating.toInt_toInt64]
  omega

/-- The product of the index and the size is cut off at the greatest signed number, which is
less than the word at which it has been cut off before. -/
theorem skip_of_assemble (h : assemble d index size direction sort = .ok page) :
    page.skip.toInt = min (index.toInt * size.toInt) (2 ^ 63 - 1) := by
  obtain ⟨hindex, hsize⟩ := numbers_of_assemble h
  have hproduct : ((page.index.toNat * page.size.toNat : Nat) : Int) =
      index.toInt * size.toInt := by
    rw [Int.natCast_mul, hindex, hsize]
  rw [skip, Saturating.toInt_toInt64, offset, Saturating.toNat_mul, ← hproduct]
  omega

theorem validateSort_of_declared (h : ∀ key ∈ page.keys, d.contains key.field = true) :
    page.validateSort d = .ok () := by
  have hnone : page.keys.filter (fun key => !d.contains key.field) = [] := by
    rw [List.filter_eq_nil_iff]
    intro key hkey
    simp [h key hkey]
  simp [validateSort, hnone]

/-- A page that passes the check of its keys has declared ones. -/
theorem declared_of_validateSort (h : page.validateSort d = .ok ()) :
    ∀ key ∈ page.keys, d.contains key.field = true := by
  simp only [validateSort] at h
  split at h
  · next hnone =>
      intro key hkey
      simpa using List.filter_eq_nil_iff.1 (List.isEmpty_iff.1 hnone) key hkey
  · cases h

/-- A page is refused for its keys alone. -/
theorem validateSort_error {e : ValidationError} (h : page.validateSort d = .error e) :
    ∃ errors, e = .fields errors := by
  simp only [validateSort] at h
  split at h
  · cases h
  · cases h
    exact ⟨_, rfl⟩

/-- A page with keys that are not declared is refused for all of these, in their order. -/
theorem validateSort_of_undeclared (h : page.keys.filter (fun key => !d.contains key.field) ≠ []) :
    page.validateSort d = .error (.fields ((page.keys.filter fun key => !d.contains key.field).map
      fun key => .unknownField d.entity key.field)) := by
  simp only [validateSort, List.isEmpty_iff, if_neg h]

end EntityQuery.PageSpec
