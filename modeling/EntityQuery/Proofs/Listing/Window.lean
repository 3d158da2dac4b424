import EntityQuery.Proofs.Memory.Paging
import EntityQuery.Proofs.Relational.Binding
import EntityQuery.Store.Document
/-!
# The window of a page

Which entries of an ordered list a page takes, told by their positions: from the product of its
index and its size up to the product of the next index and the size, both as numbers without a
bound. The in-memory store cuts the list itself. A database is told a limit and an offset, as
values of a statement or as stages of an aggregation, and cuts the list by these; both numbers
are cut off at the greatest that can be sent. No list has so many entries that it matters.

Of a statement only the end is read here, `LIMIT` and `OFFSET`, and of an aggregation only the
stages behind the sort. Both refuse numbers that are not allowed.
-/

namespace EntityQuery

/-! ## Positions -/

/-- The entries of a list at the positions from `first` up to and without `last`. -/
def positionsWithin {β : Type} (first last : Nat) (entries : List β) : List β :=
  (entries.zipIdx.filter fun entry => first ≤ entry.2 ∧ entry.2 < last).map Prod.fst

section Positions

variable {β : Type}

/-- Positions are counted from any number on. -/
theorem map_filter_zipIdx (entries : List β) (first last k : Nat) :
    ((entries.zipIdx k).filter fun entry => first ≤ entry.2 ∧ entry.2 < last).map Prod.fst =
      (entries.drop (first - k)).take (last - max first k) := by
  induction entries generalizing k with
  | nil => simp
  | cons e rest ih =>
      rw [List.zipIdx_cons, List.filter_cons]
      by_cases hfirst : first ≤ k
      · by_cases hlast : k < last
        · obtain ⟨n, hn⟩ : ∃ n, last - max first k = n + 1 := ⟨last - k - 1, by omega⟩
          have hrest : last - max first (k + 1) = n := by omega
          rw [if_pos (by simp [hfirst, hlast]), List.map_cons, ih, hrest, hn,
            Nat.sub_eq_zero_of_le hfirst, Nat.sub_eq_zero_of_le (Nat.le_succ_of_le hfirst)]
          rfl
        · have hnone : last - max first k = 0 := by omega
          have hrest : last - max first (k + 1) = 0 := by omega
          rw [if_neg (by simp [hlast]), ih, hrest, hnone]
          simp
      · obtain ⟨n, hn⟩ : ∃ n, first - k = n + 1 := ⟨first - k - 1, by omega⟩
        have hrest : first - (k + 1) = n := by omega
        have hmax : max first (k + 1) = max first k := by omega
        rw [if_neg (by simp [hfirst]), ih, hrest, hmax, hn]
        rfl

/-- A slice of a list holds the positions from its beginning on. -/
theorem take_drop_eq_positionsWithin (entries : List β) (i s : Nat) :
    (entries.drop (i * s)).take s = positionsWithin (i * s) ((i + 1) * s) entries := by
  have hwidth : (i + 1) * s - max (i * s) 0 = s := by
    rw [Nat.succ_mul]
    omega
  rw [positionsWithin, map_filter_zipIdx, hwidth]
  rfl

/-- A slice whose beginning is cut off at a number that the list does not reach. -/
theorem take_drop_min_eq_positionsWithin {entries : List β} {greatest : Nat}
    (h : entries.length ≤ greatest) (i s : Nat) :
    (entries.drop (min (i * s) greatest)).take s =
      positionsWithin (i * s) ((i + 1) * s) entries := by
  rw [drop_min h, take_drop_eq_positionsWithin]

end Positions

/-! ## Statements -/

namespace Relational

open Sql

/-- The value of the placeholder with a number; the first has the number one. -/
def Statement.bound? (s : Statement) : Nat → Option Param
  | 0 => none
  | n + 1 => s.params[n]?

/-- A number of rows, which must not be negative. -/
def Param.count? : Param → Option Nat
  | int8 n => if 0 ≤ n.toInt then some n.toInt.toNat else none
  | _ => none

/-- The placeholders of the limit and of the offset at the end of a statement. -/
def limitAndOffset? (tokens : List Token) : Option (Nat × Nat) :=
  match tokens.reverse with
  | .numbered offset :: .word "OFFSET" :: .numbered limit :: .word "LIMIT" :: _ =>
    some (limit, offset)
  | _ => none

/-- What a database sends of the rows that a statement selects, given in their order: it passes
over as many as the offset says, and sends at most as many as the limit says. -/
def Statement.cut? {β : Type} (s : Statement) (rows : List β) : Option (List β) := do
  let (limit, offset) ← (tokens? s.sql).bind limitAndOffset?
  let limit ← (s.bound? limit).bind Param.count?
  let offset ← (s.bound? offset).bind Param.count?
  some ((rows.drop offset).take limit)

/-- The statement of a page cuts by its limit and its offset. -/
theorem cut?_select {α β : Type} [Resource α] (specification : Option Specification)
    (order : List OrderTerm) {page : PageSpec} (hlimit : 0 ≤ page.limit.toInt)
    (hskip : 0 ≤ page.skip.toInt) (rows : List β) :
    (select α (whereClause specification) order page).cut? rows =
      some ((rows.drop page.skip.toInt.toNat).take page.limit.toInt.toNat) := by
  have hbinds := binds_select (α := α) specification order page
  have hcount : (whereParams α (whereClause specification)).length =
      (Specification.toComparisons specification).length + 1 := by
    simp [whereParams_whereClause]
  have hend : limitAndOffset? (selectTokens (Specification.toComparisons specification) order) =
      some ((Specification.toComparisons specification).length + 2,
        (Specification.toComparisons specification).length + 3) := by
    simp [limitAndOffset?, selectTokens]
  have hboundLimit : (select α (whereClause specification) order page).bound?
      ((Specification.toComparisons specification).length + 2) = some (.int8 page.limit) := by
    rw [Statement.bound?, hbinds.bound, List.getElem?_append_right (by omega), hcount]
    simp
  have hboundOffset : (select α (whereClause specification) order page).bound?
      ((Specification.toComparisons specification).length + 3) = some (.int8 page.skip) := by
    rw [Statement.bound?, hbinds.bound, List.getElem?_append_right (by omega), hcount]
    simp
  simp [Statement.cut?, hbinds.reads, hend, hboundLimit, hboundOffset, Param.count?, hlimit, hskip]

end Relational

/-! ## Stages -/

namespace DocumentStore

/-- What the stages behind a sort leave of the sorted documents. -/
def cutSorted? {β : Type} : List Document → List β → Option (List β)
  | [], documents => some documents
  | [("$skip", .int64 n)] :: rest, documents =>
    if 0 ≤ n.toInt then cutSorted? rest (documents.drop n.toInt.toNat) else none
  | [("$limit", .int64 n)] :: rest, documents =>
    if 1 ≤ n.toInt then cutSorted? rest (documents.take n.toInt.toNat) else none
  | [("$unset", _)] :: rest, documents => cutSorted? rest documents
  | _, _ => none

/-- What an aggregation sends of the documents that it matches, given in the order of its sort.
Only matching and adding members may come before the sort. -/
def cut? {β : Type} : List Document → List β → Option (List β)
  | [("$match", _)] :: rest, documents => cut? rest documents
  | [("$addFields", _)] :: rest, documents => cut? rest documents
  | [("$sort", _)] :: rest, documents => cutSorted? rest documents
  | _, _ => none

theorem cut?_stages {β : Type} (filter : Filter) {page : PageSpec} (hlimit : 1 ≤ page.limit.toInt)
    (hskip : 0 ≤ page.skip.toInt) (documents : List β) :
    cut? ((stages filter page).map Stage.toDocument) documents =
      some ((documents.drop page.skip.toInt.toNat).take page.limit.toInt.toNat) := by
  simp [stages, pageStages, Stage.toDocument, cut?, cutSorted?, hlimit, hskip]

/-- A listing with declared sort fields asks for the count and then, if that is answered, for the
page. -/
theorem sent_execute {α : Type} [Resource α] {q : CompiledQuery} {page : PageSpec}
    (hsort : page.validateSort (Resource.descriptor α) = .ok ()) {server : Command → Reply}
    {total : UInt64}
    (hcount : server (.count (Resource.plural α) (.ofPredicate q.predicate)) = .counted total) :
    ((execute q page : Session (Page α)).run (.up server)).2 =
      [.count (Resource.plural α) (.ofPredicate q.predicate),
        .aggregate (Resource.plural α) (stages (.ofPredicate q.predicate) page)] := by
  simp only [execute, hsort, Dialogue.run, hcount]
  split <;> rfl

end DocumentStore

/-! ## One window -/

section Window

variable {d : Descriptor} {index size : Int64} {direction : Option Direction}
variable {sort : Option (List String)} {page : PageSpec} {β : Type}

/-- The slice of an assembled page, whose beginning is cut off at the greatest word. -/
theorem PageSpec.slice_of_assemble (h : assemble d index size direction sort = .ok page)
    {entries : List β} (hlength : entries.length < 2 ^ 63) :
    (entries.drop page.offset.toNat).take page.size.toNat =
      positionsWithin (index.toInt.toNat * size.toInt.toNat)
        ((index.toInt.toNat + 1) * size.toInt.toNat) entries := by
  obtain ⟨hindex, hsize, -⟩ := of_assemble h
  rw [offset, Saturating.toNat_mul, hindex, hsize]
  exact take_drop_min_eq_positionsWithin (by omega) _ _

/-- The cut by the limit and the offset that a database is told, where the beginning is cut off at
the greatest signed number. -/
theorem PageSpec.cut_of_assemble (h : assemble d index size direction sort = .ok page)
    {entries : List β} (hlength : entries.length < 2 ^ 63) :
    (entries.drop page.skip.toInt.toNat).take page.limit.toInt.toNat =
      positionsWithin (index.toInt.toNat * size.toInt.toNat)
        ((index.toInt.toNat + 1) * size.toInt.toNat) entries := by
  obtain ⟨hindex, hsize⟩ := (assemble_iff d direction sort).1 ⟨page, h⟩
  have hproduct : ((index.toInt.toNat * size.toInt.toNat : Nat) : Int) =
      index.toInt * size.toInt := by
    rw [Int.natCast_mul, Int.toNat_of_nonneg hindex, Int.toNat_of_nonneg (by omega)]
  have hskip : page.skip.toInt.toNat = min (index.toInt.toNat * size.toInt.toNat) (2 ^ 63 - 1) := by
    rw [skip_of_assemble h, ← hproduct]
    omega
  rw [hskip, limit_of_assemble h]
  exact take_drop_min_eq_positionsWithin (by omega) _ _

end Window

namespace Listing

/-- The three stores take the same window out of a list in its order. A page is assembled exactly
if its index is not negative and its size is at least one, and it then has these very numbers.
The limit that databases are told is the size, and the offset is the product of the index and the
size or the greatest signed number; both are in the range that databases accept. The in-memory
store answers the positions from the product of the index and the size up to the product of the
next index and the size, and so do databases that cut by the statement or by the stages that they
are sent. -/
theorem stores_cut_same_window (α : Type) [Resource α] (index size : Int64)
    (direction : Option Direction) (sort : Option (List String)) :
    let d := Resource.descriptor α
    let first := index.toInt.toNat * size.toInt.toNat
    let last := (index.toInt.toNat + 1) * size.toInt.toNat
    ((∃ page, PageSpec.assemble d index size direction sort = .ok page) ↔
      0 ≤ index.toInt ∧ 1 ≤ size.toInt) ∧
    ∀ page, PageSpec.assemble d index size direction sort = .ok page →
      ((page.index.toNat : Int) = index.toInt ∧ (page.size.toNat : Int) = size.toInt) ∧
      (page.limit.toInt = size.toInt ∧ 1 ≤ page.limit.toInt) ∧
      (page.skip.toInt = min (index.toInt * size.toInt) (2 ^ 63 - 1) ∧
        0 ≤ page.skip.toInt ∧ page.skip.toInt ≤ 2 ^ 63 - 1) ∧
      (∀ (β : Type) (entries : List β), entries.length < 2 ^ 63 →
        (entries.drop page.offset.toNat).take page.size.toNat =
          positionsWithin first last entries) ∧
      (page.validateSort d = .ok () → ∀ q,
        (∀ store : MemoryStore α, (store.select q.predicate page.keys).length < 2 ^ 63 →
          ∃ found, store.execute q page = .ok found ∧
            found.content = positionsWithin first last (store.select q.predicate page.keys)) ∧
        (∃ selected values,
          (∀ server, ((Relational.execute q page : Relational.Session (Page α)).run
            (.up server)).2.head? = some selected) ∧
          selected.params = values ++ [.int8 page.limit, .int8 page.skip] ∧
          ∀ (β : Type) (rows : List β), rows.length < 2 ^ 63 →
            selected.cut? rows = some (positionsWithin first last rows)) ∧
        ∃ filter stages,
          (∀ server total, server (.count (Resource.plural α) filter) = .counted total →
            ((DocumentStore.execute q page : DocumentStore.Session (Page α)).run
                (.up server)).2 =
              [.count (Resource.plural α) filter, .aggregate (Resource.plural α) stages]) ∧
          .skip page.skip ∈ stages ∧ .limit page.limit ∈ stages ∧
          ∀ (β : Type) (documents : List β), documents.length < 2 ^ 63 →
            DocumentStore.cut? (stages.map DocumentStore.Stage.toDocument) documents =
              some (positionsWithin first last documents)) := by
  intro d first last
  refine ⟨PageSpec.assemble_iff d direction sort, ?_⟩
  intro page hpage
  obtain ⟨hindex, hsize⟩ := (PageSpec.assemble_iff d direction sort).1 ⟨page, hpage⟩
  have hlimit := PageSpec.limit_of_assemble hpage
  have hlimitPos : 1 ≤ page.limit.toInt := by omega
  have hskip := PageSpec.skip_of_assemble hpage
  have hskipNonneg : 0 ≤ page.skip.toInt := by
    have hproduct : 0 ≤ index.toInt * size.toInt := Int.mul_nonneg hindex (by omega)
    omega
  refine ⟨PageSpec.numbers_of_assemble hpage, ⟨hlimit, hlimitPos⟩,
    ⟨hskip, hskipNonneg, by omega⟩, ?_, ?_⟩
  · intro β entries hlength
    exact PageSpec.slice_of_assemble hpage hlength
  intro hsort q
  refine ⟨?memory, ?relational, ?document⟩
  case memory =>
    intro store hlength
    obtain ⟨total, -, hexecute⟩ := store.execute_eq q hsort hlength
    refine ⟨_, hexecute, ?_⟩
    obtain ⟨hpageIndex, hpageSize, -⟩ := PageSpec.of_assemble hpage
    rw [hpageIndex, hpageSize]
    exact take_drop_eq_positionsWithin ..
  case relational =>
    have hdeclared := PageSpec.declared_of_validateSort hsort
    obtain ⟨order, horder⟩ : ∃ order, Relational.orderTerms d page.keys = .ok order :=
      ⟨_, Relational.orderTerms_of_declared hdeclared⟩
    refine ⟨Relational.select α (Relational.whereClause q.specification) order page,
      Relational.whereParams α (Relational.whereClause q.specification), ?_, rfl, ?_⟩
    · intro server
      rw [Relational.sent_execute hdeclared horder]
      rfl
    · intro β rows hlength
      rw [Relational.cut?_select q.specification order (by omega) hskipNonneg,
        PageSpec.cut_of_assemble hpage hlength]
  case document =>
    refine ⟨.ofPredicate q.predicate, DocumentStore.stages (.ofPredicate q.predicate) page, ?_,
      ?_, ?_, ?_⟩
    · intro server total hcount
      exact DocumentStore.sent_execute hsort hcount
    · simp [DocumentStore.stages, DocumentStore.pageStages]
    · simp [DocumentStore.stages, DocumentStore.pageStages]
    · intro β documents hlength
      rw [DocumentStore.cut?_stages _ hlimitPos hskipNonneg,
        PageSpec.cut_of_assemble hpage hlength]

/-- The offset of this page is 2 ^ 65, which a word would wrap to the first page. It is empty. -/
theorem window_behind_all_words :
    ∃ page, PageSpec.assemble (Resource.descriptor (Entity Directory.role)) 4611686018427387904 8
        none none = .ok page ∧
      page.limit.toInt = 8 ∧ page.skip.toInt = 2 ^ 63 - 1 ∧
      ([1, 2, 3].drop page.offset.toNat).take page.size.toNat = [] := by
  obtain ⟨hassembled, hpages⟩ :=
    stores_cut_same_window (Entity Directory.role) 4611686018427387904 8 none none
  obtain ⟨page, hpage⟩ := hassembled.2 ⟨by decide, by decide⟩
  obtain ⟨-, ⟨hlimit, -⟩, ⟨hskip, -⟩, hslice, -⟩ := hpages page hpage
  refine ⟨page, hpage, hlimit.trans (by decide), hskip.trans (by decide), ?_⟩
  rw [hslice Nat [1, 2, 3] (by decide)]
  decide

end Listing

end EntityQuery
