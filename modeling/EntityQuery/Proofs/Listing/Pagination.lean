import EntityQuery.Proofs.Listing.Precedence
import EntityQuery.Proofs.Memory.Paging
import Mathlib.Algebra.Order.Floor.Div
/-!
# The pages around a page

What a listing tells about its pages, as numbers without a bound, and that a request for the next
page finds what is told. The words of a pagination are cut off at the greatest one, but nothing
is lost: no total is greater than a word, so an end that is cut off is not before it.

All pages of one request are slices of one list, in which the index of the page has no part. This
is what ties the page that is told to the page that is answered later.
-/

namespace EntityQuery

/-! ## Places -/

namespace Pagination

variable (page size total : UInt64)

/-- One is added only to a quotient with a rest, which is less than the whole. -/
theorem toNat_divCeil (whole : UInt64) {size : UInt64} (hsize : 0 < size.toNat) :
    (divCeil whole size).toNat = whole.toNat ⌈/⌉ size.toNat := by
  have hbound := whole.toNat_lt
  have hparts := Nat.div_add_mod' whole.toNat size.toNat
  have hless := Nat.mod_lt whole.toNat hsize
  have hrest : whole % size = 0 ↔ whole.toNat % size.toNat = 0 := by
    rw [← UInt64.toNat_inj, UInt64.toNat_mod]
    rfl
  rw [divCeil, Nat.ceilDiv_eq_add_pred_div]
  split
  · next hnone =>
      rw [hrest] at hnone
      rw [UInt64.toNat_div]
      refine (Nat.div_eq_of_lt_le ?_ ?_).symm
      · omega
      · rw [Nat.succ_mul]
        omega
  · next hsome =>
      rw [hrest] at hsome
      have hquotient := Nat.le_mul_of_pos_right (whole.toNat / size.toNat) hsize
      have hone : (1 : UInt64).toNat = 1 := rfl
      rw [UInt64.toNat_add, UInt64.toNat_div, hone, Nat.mod_eq_of_lt (by omega)]
      refine (Nat.div_eq_of_lt_le ?_ ?_).symm
      · rw [Nat.succ_mul]
        omega
      · rw [Nat.succ_mul, Nat.succ_mul]
        omega

theorem toNat_totalPages_of :
    (of page size total).totalPages.toNat = total.toNat ⌈/⌉ max size.toNat 1 := by
  have hwidth : (max size 1).toNat = max size.toNat 1 := UInt64.toNat_max size 1
  have hcovers : (of page size total).totalPages.toNat = total.toNat ⌈/⌉ (max size 1).toNat :=
    toNat_divCeil total (by omega)
  rw [hcovers, hwidth]

/-- The pages before the number of pages are those that begin before the total. -/
theorem lt_totalPages_of_iff (n : Nat) :
    n < (of page size total).totalPages.toNat ↔ n * max size.toNat 1 < total.toNat := by
  rw [toNat_totalPages_of, mul_comm]
  exact lt_iff_lt_of_le_iff_le (ceilDiv_le_iff_le_mul (by omega))

/-- An end that is cut off is the greatest word, and no total is greater. -/
theorem hasNext_of_iff :
    (of page size total).hasNext = true ↔ (page.toNat + 1) * max size.toNat 1 < total.toNat := by
  have htotal := total.toNat_lt
  have hone : (1 : UInt64).toNat = 1 := rfl
  have hwidth := toNat_size_of page size total
  have hend : (of page size total).hasNext = true ↔
      min (min (page.toNat + 1) 0xFFFFFFFFFFFFFFFF * max size.toNat 1) 0xFFFFFFFFFFFFFFFF <
        total.toNat := by
    rw [← hwidth, ← hone, ← Saturating.toNat_add, ← Saturating.toNat_mul, ← UInt64.lt_iff_toNat_lt]
    exact decide_eq_true_iff
  rw [hend]
  obtain hle | hgt := le_or_gt (page.toNat + 1) 0xFFFFFFFFFFFFFFFF
  · rw [min_eq_left hle]
    omega
  · have hcut := Nat.le_mul_of_pos_right 0xFFFFFFFFFFFFFFFF (show 0 < max size.toNat 1 by omega)
    have hexact := Nat.mul_le_mul_right (max size.toNat 1) hgt.le
    rw [min_eq_right hgt.le]
    omega

theorem hasPrev_of_iff : (of page size total).hasPrev = true ↔ 0 < page.toNat :=
  decide_eq_true_iff

/-- The place of a page whose size is not zero. -/
theorem of_pos {α : Type} {found : Page α} (hsize : 0 < found.size.toNat) :
    (ofPage found).size.toNat = found.size.toNat ∧
      ((ofPage found).hasNext = true ↔
        (found.index.toNat + 1) * found.size.toNat < found.total.toNat) ∧
      ∀ n, n < (ofPage found).totalPages.toNat ↔ n * found.size.toNat < found.total.toNat := by
  have hwidth : max found.size.toNat 1 = found.size.toNat := Nat.max_eq_left hsize
  rw [ofPage, toNat_size_of, hasNext_of_iff, hwidth]
  refine ⟨rfl, Iff.rfl, ?_⟩
  intro n
  rw [lt_totalPages_of_iff, hwidth]

end Pagination

namespace Listing

/-! ## The pages of a request -/

section Requests

variable {d : Descriptor} {limits : PageLimits} {params : QueryParams} {q : CompiledQuery}
variable {page : PageSpec}

/-- A prepared request has a good page and sound filters. -/
theorem of_prepare (h : prepare d limits params = .ok (q, page)) :
    ¬IsBadPage limits params.page (params.sizeOr limits.defaultSize) ∧
      PageSpec.assemble d params.page (params.sizeOr limits.defaultSize) params.direction
        params.sortFields = .ok page ∧
      params.filters.bind (CompiledQuery.compile d) = .ok q := by
  have hgood : ¬IsBadPage limits params.page (params.sizeOr limits.defaultSize) := by
    intro hbad
    obtain ⟨reason, hrefused⟩ := prepare_of_badPage (d := d) hbad
    rw [hrefused] at h
    cases h
  obtain ⟨page', hpage', hprepare⟩ := prepare_of_goodPage (d := d) hgood
  rw [hprepare] at h
  cases hquery : params.filters.bind (CompiledQuery.compile d) with
  | error e =>
      rw [hquery] at h
      cases h
  | ok query =>
      rw [hquery] at h
      cases h
      exact ⟨hgood, hpage', rfl⟩

/-- The same request for another page, which is not negative, has the same query and keys. -/
theorem prepare_of_index (h : prepare d limits params = .ok (q, page)) {index : Int64}
    (hindex : 0 ≤ index.toInt) :
    ∃ page', prepare d limits { params with page := index } = .ok (q, page') ∧
      PageSpec.assemble d index (params.sizeOr limits.defaultSize) params.direction
        params.sortFields = .ok page' ∧
      page'.keys = page.keys := by
  obtain ⟨hgood, hpage, hquery⟩ := of_prepare h
  have hgood' : ¬IsBadPage limits index (params.sizeOr limits.defaultSize) := by
    unfold IsBadPage at hgood ⊢
    omega
  obtain ⟨page', hpage', hprepare⟩ :
      ∃ page', PageSpec.assemble d index (params.sizeOr limits.defaultSize) params.direction
          params.sortFields = .ok page' ∧
        prepare d limits { params with page := index } =
          (params.filters.bind (CompiledQuery.compile d)).map fun query => (query, page') :=
    @prepare_of_goodPage d limits { params with page := index } hgood'
  refine ⟨page', ?_, hpage', ?_⟩
  · rw [hprepare, hquery]
    rfl
  · rw [(PageSpec.of_assemble hpage).2.2, (PageSpec.of_assemble hpage').2.2]

variable {α : Type} [Resource α] {store : MemoryStore α} {found : Page α}

/-- A request that is answered was prepared, and its sort fields are declared. -/
theorem exists_prepare_of_answer (h : answerInMemory store limits params = .ok found) :
    ∃ q page, prepare (Resource.descriptor α) limits params = .ok (q, page) ∧
      page.validateSort (Resource.descriptor α) = .ok () := by
  cases hprepare : prepare (Resource.descriptor α) limits params with
  | error e =>
      rw [answerInMemory, refuses_of_prepare hprepare] at h
      cases h
  | ok both =>
      cases hsort : both.2.validateSort (Resource.descriptor α) with
      | error e =>
          rw [(answers_of_undeclared hprepare hsort).1] at h
          cases h
      | ok => exact ⟨both.1, both.2, rfl, hsort⟩

/-- An answered request has a list of which every page of the request is a slice. -/
theorem exists_pages_of_answer (hcount : store.size < 2 ^ 63)
    (h : answerInMemory store limits params = .ok found) :
    let width := (params.sizeOr limits.defaultSize).toInt.toNat
    0 ≤ params.page.toInt ∧ 0 < width ∧
      ∃ entries : List α, entries.length < 2 ^ 63 ∧ ∀ index : Int64, 0 ≤ index.toInt →
        ∃ page : Page α, answerInMemory store limits { params with page := index } = .ok page ∧
          page.index.toNat = index.toInt.toNat ∧ page.size.toNat = width ∧
          page.total.toNat = entries.length ∧
          page.content = (entries.drop (index.toInt.toNat * width)).take width := by
  intro width
  obtain ⟨q, spec, hprepare, hsort⟩ := exists_prepare_of_answer h
  have hselected (keys : List SortKey) : (store.select q.predicate keys).length < 2 ^ 63 :=
    (store.length_select_le q.predicate keys).trans_lt hcount
  obtain ⟨hpage, hwidth⟩ := (PageSpec.assemble_iff ..).1 ⟨spec, (of_prepare hprepare).2.1⟩
  refine ⟨hpage, Int.lt_toNat.2 hwidth, store.select q.predicate spec.keys, hselected spec.keys, ?_⟩
  intro index hindex
  obtain ⟨spec', hprepare', hassemble', hkeys⟩ := prepare_of_index hprepare hindex
  have hsort' : spec'.validateSort (Resource.descriptor α) = .ok () :=
    PageSpec.validateSort_of_declared (hkeys ▸ PageSpec.declared_of_validateSort hsort)
  obtain ⟨hnumber, hsize, -⟩ := PageSpec.of_assemble hassemble'
  obtain ⟨total, htotal, hexecute⟩ := store.execute_eq q hsort' (hselected spec'.keys)
  rw [hkeys, hnumber, hsize] at hexecute
  rw [hkeys] at htotal
  exact ⟨_, (reaches_of_prepare hprepare' Id _).trans hexecute, hnumber, hsize, htotal, rfl⟩

end Requests

/-- A pagination is exact: the number of pages is the total divided by the size and rounded up,
there is a next page exactly if the total reaches behind the end of the page, and a previous one
exactly if the page is not the first. In-memory listings have the pages that are told. With a
next page the same request for it has entities, and without one it has none; the greatest
index that can be asked for has no next page. A page has entities exactly if it is before the
number of pages, and it is full if it is not the last. A store has fewer entities than the
greatest signed number, as every list in memory. -/
theorem pages_as_told (α : Type) [Resource α] :
    (∀ page size total : UInt64,
      let width := max size.toNat 1
      let place := Pagination.of page size total
      place.totalPages.toNat = total.toNat ⌈/⌉ width ∧
      (place.hasNext = true ↔ (page.toNat + 1) * width < total.toNat) ∧
      (place.hasNext = true ↔ page.toNat + 1 < place.totalPages.toNat) ∧
      (place.hasPrev = true ↔ 0 < page.toNat)) ∧
    ∀ store : MemoryStore α, store.size < 2 ^ 63 → ∀ limits params found,
      answerInMemory store limits params = .ok found →
        let place := Pagination.ofPage found
        ((place.page.toNat : Int) = params.page.toInt ∧
          (place.size.toNat : Int) = (params.sizeOr limits.defaultSize).toInt) ∧
        (place.hasNext = true ↔ ∃ index : Int64, index.toInt = params.page.toInt + 1 ∧
          ∃ next, answerInMemory store limits { params with page := index } = .ok next ∧
            next.content ≠ []) ∧
        (∀ index : Int64, index.toInt = params.page.toInt + 1 →
          ∃ next, answerInMemory store limits { params with page := index } = .ok next) ∧
        (found.content ≠ [] ↔ place.page < place.totalPages) ∧
        (place.page.toNat + 1 < place.totalPages.toNat →
          found.content.length = place.size.toNat) := by
  refine ⟨?exact, ?listing⟩
  case exact =>
    intro page size total width place
    refine ⟨Pagination.toNat_totalPages_of page size total,
      Pagination.hasNext_of_iff page size total, ?_, Pagination.hasPrev_of_iff page size total⟩
    rw [Pagination.hasNext_of_iff, Pagination.lt_totalPages_of_iff]
  case listing =>
    intro store hcount limits params found hfound
    obtain ⟨hpage, hwidth, entries, hlength, hpages⟩ := exists_pages_of_answer hcount hfound
    obtain ⟨_, hanswer, hindex, hsize, htotal, hcontent⟩ := hpages params.page hpage
    obtain rfl := Except.ok.inj (hfound.symm.trans hanswer)
    have hpos : 0 < found.size.toNat := hsize ▸ hwidth
    obtain ⟨hplaceSize, hnext, hbefore⟩ := Pagination.of_pos hpos
    rw [hindex, hsize, htotal] at hnext
    rw [hsize, htotal] at hbefore
    rw [hsize] at hplaceSize
    intro place
    have hfollowing : ∀ index : Int64, index.toInt = params.page.toInt + 1 →
        ∃ next, answerInMemory store limits { params with page := index } = .ok next ∧
          (next.content ≠ [] ↔ place.hasNext = true) := by
      intro index hsucc
      obtain ⟨next, hanswered, -, -, -, hcontents⟩ := hpages index (by omega)
      have hnumber : index.toInt.toNat = params.page.toInt.toNat + 1 := by omega
      refine ⟨next, hanswered, ?_⟩
      rw [hcontents, take_drop_ne_nil_iff entries hwidth, hnumber, hnext]
    refine ⟨⟨?_, ?_⟩, ⟨?_, ?_⟩, ?_, ?_, ?_⟩
    · show (found.index.toNat : Int) = params.page.toInt
      omega
    · rw [hplaceSize]
      omega
    · -- a page that begins before the end of a list in memory has an index that can be sent
      intro hhasNext
      have hend := hnext.1 hhasNext
      have hreach := Nat.le_mul_of_pos_right (params.page.toInt.toNat + 1) hwidth
      have hsucc : (Int64.ofNat (params.page.toInt.toNat + 1)).toInt = params.page.toInt + 1 := by
        rw [Int64.toInt_ofNat_of_lt (by omega)]
        omega
      obtain ⟨next, hanswered, hne⟩ := hfollowing _ hsucc
      exact ⟨_, hsucc, next, hanswered, hne.2 hhasNext⟩
    · rintro ⟨index, hsucc, next, hanswered, hne⟩
      obtain ⟨_, hanswered', hiff⟩ := hfollowing index hsucc
      obtain rfl := Except.ok.inj (hanswered.symm.trans hanswered')
      exact hiff.1 hne
    · intro index hsucc
      obtain ⟨next, hanswered, -⟩ := hfollowing index hsucc
      exact ⟨next, hanswered⟩
    · rw [hcontent, take_drop_ne_nil_iff entries hwidth, ← hindex, UInt64.lt_iff_toNat_lt]
      exact (hbefore found.index.toNat).symm
    · intro hlast
      have hfull := (hbefore (found.index.toNat + 1)).1 hlast
      rw [hindex] at hfull
      rw [hcontent, hplaceSize]
      exact length_take_drop_of_next entries hfull

/-- Three roles on pages of two: the first page is full and the second one is there. -/
theorem pages_told_of_roles :
    let now : Instant := ⟨⟨2010, 11, 23, by decide⟩, 36930, 0, by decide, by decide⟩
    let role := fun n name => Directory.newRole (Uuid.ofNat n) now name none
    let store := MemoryStore.ofList [role 1 "b", role 2 "a", role 3 "c"]
    let params : QueryParams := { page := 0, size := some 2 }
    ∃ found next, answerInMemory store {} params = .ok found ∧ found.content.length = 2 ∧
      (Pagination.ofPage found).hasNext = true ∧
      answerInMemory store {} { params with page := 1 } = .ok next ∧ next.content ≠ [] := by
  intro now role store params
  obtain ⟨-, hlisting⟩ := pages_as_told (Entity Directory.role)
  obtain ⟨found, hfound, hplace⟩ : ∃ found, answerInMemory store {} params = .ok found ∧
      Pagination.ofPage found = Pagination.of 0 2 3 := by
    refine ⟨_, rfl, ?_⟩
    have hthree :
        (store.select CompiledQuery.matchAll.predicate [⟨"id", .ascending⟩]).length = 3 := by
      rw [MemoryStore.select, List.length_mergeSort]
      decide
    exact congrArg (fun n => Pagination.of 0 2 (Saturating.ofNat n)) hthree
  obtain ⟨-, hnext, -, -, hfull⟩ := hlisting store (by decide) {} params found hfound
  rw [hplace] at hnext hfull
  obtain ⟨index, hindex, next, hanswered, hne⟩ := hnext.1 (by decide)
  obtain rfl : index = 1 := Int64.toInt_inj.1 hindex
  exact ⟨found, next, hfound, hfull (by decide), by rw [hplace]; decide, hanswered, hne⟩

end Listing

end EntityQuery
