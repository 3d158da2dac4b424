import EntityQuery.Entity.Codec
import EntityQuery.Entity.Directory
import EntityQuery.Http.Response
import EntityQuery.Listing.Answering
import EntityQuery.Listing.Pagination
import EntityQuery.Proofs.Compilation
import EntityQuery.Proofs.Memory.Repository
import EntityQuery.Proofs.Memory.Strictness
import EntityQuery.Proofs.Page
import EntityQuery.Store.Document
import EntityQuery.Store.Relational
/-!
# What a listing is refused for

The checks of a request, in the order in which they decide: the page, the text of the
filters, the filters, and then the sort fields. The first three are made before any store is
asked, so whatever the store is, and in whatever way it is asked, the answer is the same. The
fourth is made by the store, which does not look at its entities or send anything for it.

Then the store decides. The in-memory one has a page, unless its lock is poisoned or comparing the
entities is no total order.
-/

namespace EntityQuery

/-- The filters of a request, if the text between its blanks is a list of filters. A blank
text is the empty list. -/
def QueryParams.filterList? (p : QueryParams) : Option (List Filter) :=
  match Text.trim (p.filter.getD "").toList with
  | [] => some []
  | text => Filter.readList? text

theorem QueryParams.filters_cases (p : QueryParams) :
    (p.filterList? = none ∧ p.filters = .error (.invalidJson "expected a list of filters")) ∨
      ∃ filters, p.filterList? = some (filters.getD []) ∧ p.filters = .ok filters := by
  unfold filterList? QueryParams.filters
  cases p.filter with
  | none => exact .inr ⟨none, rfl, rfl⟩
  | some text =>
      simp only [Option.map_some, Option.getD_some]
      cases Text.trim text.toList with
      | nil => exact .inr ⟨none, rfl, rfl⟩
      | cons c rest =>
          cases hread : Filter.readList? (c :: rest) with
          | none => exact .inl ⟨hread, by simp only [hread]⟩
          | some filters => exact .inr ⟨some filters, hread, by simp only [hread]⟩

/-- No list of filters is the empty list. -/
theorem CompiledQuery.compile_getD (d : Descriptor) (filters : Option (List Filter)) :
    compile d (some (filters.getD [])) = compile d filters := by
  cases filters <;> rfl

@[simp] theorem Pagination.toNat_size_of (page size total : UInt64) :
    (of page size total).size.toNat = max size.toNat 1 :=
  UInt64.toNat_max size 1

/-- The page that settings in range give to a request without a size. -/
theorem Settings.limits_of_validate {settings : Settings} (h : settings.validate = .ok ()) :
    1 ≤ settings.limits.defaultSize.toInt ∧
      settings.limits.defaultSize.toInt ≤ settings.limits.maxSize.toInt := by
  simp only [validate] at h
  split at h
  · cases h
  split at h
  · cases h
  exact ⟨by omega, by omega⟩

namespace Listing

/-! ## Preparing a request -/

/-- A page that is not assembled, or one that is greater than the limit. -/
def IsBadPage (limits : PageLimits) (page size : Int64) : Prop :=
  limits.maxSize.toInt < size.toInt ∨ page.toInt < 0 ∨ size.toInt < 1

section Preparing

variable {d : Descriptor} {limits : PageLimits} {params : QueryParams}

theorem prepare_of_badPage
    (h : IsBadPage limits params.page (params.sizeOr limits.defaultSize)) :
    ∃ reason, prepare d limits params =
      .error (.invalidPage params.page (params.sizeOr limits.defaultSize) reason) := by
  by_cases hmax : limits.maxSize.toInt < (params.sizeOr limits.defaultSize).toInt
  · refine ⟨"page size must be <= " ++ toString limits.maxSize.toInt, ?_⟩
    rw [prepare, checkSize, if_pos hmax]
    rfl
  · obtain ⟨reason, hreason⟩ := PageSpec.assemble_of_bad d params.direction params.sortFields
      (h.resolve_left hmax)
    refine ⟨reason, ?_⟩
    rw [prepare, checkSize, if_neg hmax, hreason]
    rfl

/-- With a good page only the filters decide, and the query does not depend on the page. -/
theorem prepare_of_goodPage
    (h : ¬IsBadPage limits params.page (params.sizeOr limits.defaultSize)) :
    ∃ page, PageSpec.assemble d params.page (params.sizeOr limits.defaultSize) params.direction
        params.sortFields = .ok page ∧
      prepare d limits params =
        (params.filters.bind (CompiledQuery.compile d)).map fun query => (query, page) := by
  simp only [IsBadPage, not_or, Int.not_lt] at h
  obtain ⟨hmax, hindex, hsize⟩ := h
  obtain ⟨page, hpage⟩ :=
    PageSpec.assemble_of_good d params.direction params.sortFields hindex hsize
  refine ⟨page, hpage, ?_⟩
  rw [prepare, checkSize, if_neg (by omega), hpage]
  cases params.filters <;> rfl

/-- With a good page, the text of the filters decides first, and then the filters do. -/
theorem prepare_cases (d : Descriptor)
    (h : ¬IsBadPage limits params.page (params.sizeOr limits.defaultSize)) :
    (params.filterList? = none ∧
        prepare d limits params = .error (.invalidJson "expected a list of filters")) ∨
      ∃ filters, params.filterList? = some filters ∧
        ((filters.filterMap (Filter.fault? d) ≠ [] ∧
            prepare d limits params = .error (.fields (filters.filterMap (Filter.fault? d)))) ∨
          (filters.filterMap (Filter.fault? d) = [] ∧
            ∃ q page, CompiledQuery.compile d (some filters) = .ok q ∧
              PageSpec.assemble d params.page (params.sizeOr limits.defaultSize) params.direction
                params.sortFields = .ok page ∧
              prepare d limits params = .ok (q, page))) := by
  obtain ⟨page, hpage, hprepare⟩ := prepare_of_goodPage h
  obtain ⟨hnone, hfilters⟩ | ⟨filters, hsome, hfilters⟩ := params.filters_cases
  · refine .inl ⟨hnone, ?_⟩
    rw [hprepare, hfilters]
    rfl
  refine .inr ⟨filters.getD [], hsome, ?_⟩
  obtain ⟨hfaults, hrefused⟩ | ⟨hsound, conditions, -, -, hcompiled⟩ :=
    CompiledQuery.compile_cases d filters
  · refine .inl ⟨hfaults, ?_⟩
    rw [hprepare, hfilters, Except.bind, hrefused]
    rfl
  · refine .inr ⟨hsound, _, page, (CompiledQuery.compile_getD d filters).trans hcompiled, hpage, ?_⟩
    rw [hprepare, hfilters, Except.bind, hcompiled]
    rfl

end Preparing

section Answering

variable {α : Type} {d : Descriptor} {limits : PageLimits} {params : QueryParams}

/-- The answer is a refusal, whatever the store is and in whatever way it would be asked. -/
def Refuses (α : Type) (d : Descriptor) (limits : PageLimits) (params : QueryParams)
    (e : ValidationError) : Prop :=
  ∀ (m : Type → Type) [Monad m] (source : Source m α),
    answer d source limits params = pure (.error (.validation e))

/-- The answer is the one that the store gives to a query and a page. -/
def Reaches (α : Type) (d : Descriptor) (limits : PageLimits) (params : QueryParams)
    (q : CompiledQuery) (page : PageSpec) : Prop :=
  ∀ (m : Type → Type) [Monad m] (source : Source m α),
    answer d source limits params = source q page

theorem refuses_of_prepare {e : ValidationError} (h : prepare d limits params = .error e) :
    Refuses α d limits params e := by
  intro m _ source
  rw [answer, h]

theorem reaches_of_prepare {q : CompiledQuery} {page : PageSpec}
    (h : prepare d limits params = .ok (q, page)) : Reaches α d limits params q page := by
  intro m _ source
  rw [answer, h]

end Answering

end Listing

/-! ## What the stores say to sort fields -/

section Stores

variable {α : Type} [Resource α] {q : CompiledQuery} {page : PageSpec} {e : ValidationError}

theorem MemoryStore.execute_of_refused (store : MemoryStore α)
    (h : page.validateSort (Resource.descriptor α) = .error e) :
    store.execute q page = .error (.validation e) := by
  rw [execute, h]

theorem Relational.execute_of_refused
    (h : page.validateSort (Resource.descriptor α) = .error e) :
    Relational.execute q page = (.done (.error (.validation e)) : Relational.Session (Page α)) := by
  have hstatements : Relational.statements α q page = .error e := by
    rw [statements, h]
    rfl
  rw [execute, hstatements]

theorem DocumentStore.execute_of_refused
    (h : page.validateSort (Resource.descriptor α) = .error e) :
    DocumentStore.execute q page =
      (.done (.error (.validation e)) : DocumentStore.Session (Page α)) := by
  rw [execute, h]

end Stores

/-! ## Answers of dialogues -/

namespace Dialogue

variable {Q R α : Type} {P : α → Prop}

/-- Whatever the replies are, the answer has a property. -/
def Always (P : α → Prop) : Dialogue Q R α → Prop
  | done a => P a
  | ask _ next => ∀ reply, (next reply).Always P

/-- What a dialogue always answers, it answers over every link. -/
theorem Always.run {dialogue : Dialogue Q R α} (h : dialogue.Always P) (link : Link Q R) :
    P (dialogue.run link).1 := by
  induction dialogue with
  | done a => exact h
  | ask question next ih =>
      cases link with
      | down reply => exact ih reply (h reply)
      | up server => exact ih (server question) (h (server question))

end Dialogue

/-- The result is not the refusal of a page. -/
def PageAccepted {α : Type} (result : Except QueryError (Page α)) : Prop :=
  ∀ index size reason, result ≠ .error (.validation (.invalidPage index size reason))

section Accepted

variable {α : Type}

theorem pageAccepted_ok (page : Page α) : PageAccepted (.ok page) := by
  intro index size reason h
  cases h

theorem pageAccepted_fields (errors : List FilterError) :
    PageAccepted (.error (.validation (.fields errors)) : Except QueryError (Page α)) := by
  intro index size reason h
  cases h

theorem pageAccepted_storage (cause : StorageError) :
    PageAccepted (.error (.storage cause) : Except QueryError (Page α)) := by
  intro index size reason h
  cases h

variable [Resource α]

theorem MemoryRepository.pageAccepted_execute {repository : MemoryRepository α}
    {sorter : Sorter α} {q : CompiledQuery} {page : PageSpec}
    {result : Except QueryError (Page α)}
    (h : repository.execute sorter q page = some result) : PageAccepted result := by
  cases hsort : page.validateSort (Resource.descriptor α) with
  | error e =>
      obtain ⟨errors, rfl⟩ := PageSpec.validateSort_error hsort
      rw [execute_of_refused hsort] at h
      cases h
      exact pageAccepted_fields errors
  | ok =>
      cases hpoisoned : repository.poisoned with
      | true =>
          rw [execute_of_poisoned hsort hpoisoned] at h
          cases h
          exact pageAccepted_storage _
      | false =>
          obtain ⟨selected, -, rfl⟩ := exists_perm_of_execute hsort hpoisoned h
          exact pageAccepted_ok _

theorem Relational.readCount_error {cells : List Cell} {e : QueryError}
    (h : readCount cells = .error e) : ∃ cause, e = .storage cause := by
  unfold readCount at h
  split at h <;> cases h <;> exact ⟨_, rfl⟩

theorem Relational.readRow_error {cell : Cell} {e : QueryError}
    (h : (readRow cell : Except QueryError α) = .error e) : ∃ cause, e = .storage cause := by
  unfold readRow at h
  split at h
  · split at h <;> cases h
    exact ⟨_, rfl⟩
  · cases h
    exact ⟨_, rfl⟩

theorem Relational.mapM_readRow_error {cells : List Cell} {e : QueryError}
    (h : cells.mapM (readRow : Cell → Except QueryError α) = .error e) :
    ∃ cause, e = .storage cause := by
  induction cells with
  | nil => cases h
  | cons cell rest ih =>
      rw [List.mapM_cons] at h
      cases hcell : (readRow cell : Except QueryError α) with
      | error e' =>
          rw [hcell] at h
          cases h
          exact readRow_error hcell
      | ok entity =>
          cases hrest : rest.mapM (readRow : Cell → Except QueryError α) with
          | error e' =>
              rw [hcell, hrest] at h
              cases h
              exact ih hrest
          | ok entities =>
              rw [hcell, hrest] at h
              cases h

/-- Rows are refused for what the store has, not for what the caller asked for. -/
theorem Relational.pageAccepted_readPage (page : PageSpec) (rows countRows : List Cell) :
    PageAccepted (readPage page rows countRows : Except QueryError (Page α)) := by
  unfold readPage
  cases hcount : readCount countRows with
  | error e =>
      obtain ⟨cause, rfl⟩ := readCount_error hcount
      exact pageAccepted_storage cause
  | ok total =>
      cases hrows : rows.mapM (readRow : Cell → Except QueryError α) with
      | error e =>
          obtain ⟨cause, rfl⟩ := mapM_readRow_error hrows
          exact pageAccepted_storage cause
      | ok content => exact pageAccepted_ok _

theorem Relational.statements_error {q : CompiledQuery} {page : PageSpec} {e : ValidationError}
    (h : statements α q page = .error e) : ∃ errors, e = .fields errors := by
  unfold statements at h
  cases hsort : page.validateSort (Resource.descriptor α) with
  | error e' =>
      simp only [hsort, bind, Except.bind] at h
      cases h
      exact PageSpec.validateSort_error hsort
  | ok =>
      cases horder : orderTerms (Resource.descriptor α) page.keys with
      | error e' =>
          simp only [hsort, horder, bind, Except.bind] at h
          cases h
          exact ⟨_, rfl⟩
      | ok order =>
          simp only [hsort, horder, bind, Except.bind] at h
          cases h

theorem Relational.always_pageAccepted (q : CompiledQuery) (page : PageSpec) :
    (Relational.execute q page : Relational.Session (Page α)).Always PageAccepted := by
  unfold Relational.execute
  cases hstatements : Relational.statements α q page with
  | error e =>
      obtain ⟨errors, rfl⟩ := statements_error hstatements
      exact pageAccepted_fields errors
  | ok both =>
      intro reply
      cases reply with
      | refused => exact pageAccepted_storage _
      | rows rows =>
          intro reply
          cases reply with
          | refused => exact pageAccepted_storage _
          | rows countRows => exact pageAccepted_readPage page rows countRows

theorem DocumentStore.always_pageAccepted (q : CompiledQuery) (page : PageSpec) :
    (DocumentStore.execute q page : DocumentStore.Session (Page α)).Always PageAccepted := by
  unfold DocumentStore.execute
  cases hsort : page.validateSort (Resource.descriptor α) with
  | error e =>
      obtain ⟨errors, rfl⟩ := PageSpec.validateSort_error hsort
      exact pageAccepted_fields errors
  | ok =>
      intro reply
      cases reply with
      | counted total =>
          intro reply
          cases reply with
          | found documents complete =>
              cases complete with
              | false => exact pageAccepted_storage _
              | true =>
                  show PageAccepted (readPage page total documents)
                  unfold readPage
                  split
                  · exact pageAccepted_ok _
                  · exact pageAccepted_storage _
          | _ => exact pageAccepted_storage _
      | _ => exact pageAccepted_storage _

end Accepted

namespace Listing

section Precedence

variable {α : Type} [Resource α] {limits : PageLimits} {params : QueryParams}

/-- The answer of the in-memory store with its lock, if there is one. -/
def answerRepository (repository : MemoryRepository α) (sorter : Sorter α) (limits : PageLimits)
    (params : QueryParams) : Option (Except QueryError (Page α)) :=
  answer (Resource.descriptor α) (repository.execute sorter) limits params

/-- The answer of the in-memory store, whose entities are sorted by merging. -/
def answerInMemory (store : MemoryStore α) (limits : PageLimits) (params : QueryParams) :
    Except QueryError (Page α) :=
  Id.run (answer (Resource.descriptor α) (fun q page => pure (store.execute q page)) limits params)

def answerRelational (α : Type) [Resource α] (limits : PageLimits) (params : QueryParams) :
    Relational.Session (Page α) :=
  answer (Resource.descriptor α) Relational.execute limits params

/-- The answer of the document store, with what it sends for it. -/
def answerDocument (α : Type) [Resource α] (limits : PageLimits) (params : QueryParams) :
    DocumentStore.Session (Page α) :=
  answer (Resource.descriptor α) DocumentStore.execute limits params

/-- A good page is not refused by any of the stores. -/
theorem pageAccepted_of_goodPage
    (h : ¬IsBadPage limits params.page (params.sizeOr limits.defaultSize)) :
    (∀ (repository : MemoryRepository α) (sorter : Sorter α) result,
        answerRepository repository sorter limits params = some result → PageAccepted result) ∧
      (answerRelational α limits params).Always PageAccepted ∧
      (answerDocument α limits params).Always PageAccepted := by
  unfold answerRepository answerRelational answerDocument answer
  obtain ⟨-, hprepare⟩ | ⟨filters, -, ⟨-, hprepare⟩ | ⟨-, q, page, -, -, hprepare⟩⟩ :=
    prepare_cases (Resource.descriptor α) h
  · rw [hprepare]
    exact ⟨by rintro _ _ _ ⟨⟩; nofun, nofun, nofun⟩
  · rw [hprepare]
    exact ⟨by rintro _ _ _ ⟨⟩; nofun, nofun, nofun⟩
  · rw [hprepare]
    exact ⟨fun _ _ _ => MemoryRepository.pageAccepted_execute,
      Relational.always_pageAccepted q page, DocumentStore.always_pageAccepted q page⟩

/-- The refusals of sort fields, one for each that is not declared, in their order. -/
def undeclared (d : Descriptor) (params : QueryParams) : List FilterError :=
  ((PageSpec.sortKeys d params.direction (params.sortFields.getD [])).filter
    fun key => !d.contains key.field).map fun key => .unknownField d.entity key.field

/-- The stores refuse an assembled page for the undeclared sort fields, and accept it if there
are none. -/
theorem validateSort_of_assemble {d : Descriptor} {size : Int64} {page : PageSpec}
    (h : PageSpec.assemble d params.page size params.direction params.sortFields = .ok page) :
    (undeclared d params ≠ [] → page.validateSort d = .error (.fields (undeclared d params))) ∧
      (undeclared d params = [] → page.validateSort d = .ok ()) := by
  obtain ⟨-, -, hkeys⟩ := PageSpec.of_assemble h
  rw [undeclared, ← hkeys]
  constructor
  · intro hundeclared
    exact PageSpec.validateSort_of_undeclared (mt List.map_eq_nil_iff.2 hundeclared)
  · intro hdeclared
    refine PageSpec.validateSort_of_declared ?_
    intro key hkey
    have hnone := List.filter_eq_nil_iff.1 (List.map_eq_nil_iff.1 hdeclared) key hkey
    simpa using hnone

section Reached

variable {q : CompiledQuery} {page : PageSpec} {e : ValidationError}

/-- With undeclared sort fields no store goes further than its check of them. -/
theorem answers_of_undeclared
    (hprepare : prepare (Resource.descriptor α) limits params = .ok (q, page))
    (hsort : page.validateSort (Resource.descriptor α) = .error e) :
    (∀ store : MemoryStore α, answerInMemory store limits params = .error (.validation e)) ∧
      (∀ (repository : MemoryRepository α) sorter,
        answerRepository repository sorter limits params = some (.error (.validation e))) ∧
      answerRelational α limits params = .done (.error (.validation e)) ∧
      answerDocument α limits params = .done (.error (.validation e)) := by
  have hreaches := reaches_of_prepare (α := α) hprepare
  refine ⟨fun store => ?_, fun repository sorter => ?_, ?_, ?_⟩
  · exact (hreaches Id _).trans (store.execute_of_refused hsort)
  · exact (hreaches Option _).trans (MemoryRepository.execute_of_refused hsort)
  · exact (hreaches _ _).trans (Relational.execute_of_refused hsort)
  · exact (hreaches _ _).trans (DocumentStore.execute_of_refused hsort)

/-- With declared sort fields a poisoned lock is reported. -/
theorem answerRepository_of_poisoned {repository : MemoryRepository α} (sorter : Sorter α)
    (hprepare : prepare (Resource.descriptor α) limits params = .ok (q, page))
    (hsort : page.validateSort (Resource.descriptor α) = .ok ())
    (hpoisoned : repository.poisoned = true) :
    answerRepository repository sorter limits params =
      some (.error (.storage (MemoryRepository.refusal "read"))) :=
  (reaches_of_prepare hprepare Option _).trans
    (MemoryRepository.execute_of_poisoned hsort hpoisoned)

/-- With declared sort fields and a total order there is a page. -/
theorem exists_answerRepository_of_isTotalOn {repository : MemoryRepository α} (sorter : Sorter α)
    (hprepare : prepare (Resource.descriptor α) limits params = .ok (q, page))
    (hsort : page.validateSort (Resource.descriptor α) = .ok ())
    (hpoisoned : repository.poisoned = false)
    (htotal : IsTotalOn (compareEntities · · page.keys)
      (repository.store.entities.filter q.predicate.holds)) :
    ∃ found, answerRepository repository sorter limits params = some (.ok found) := by
  have hexecute : repository.execute sorter q page = some (repository.store.execute q page) :=
    MemoryRepository.execute_of_isTotalOn hpoisoned htotal
  rw [MemoryStore.execute, hsort] at hexecute
  exact ⟨_, (reaches_of_prepare hprepare Option _).trans hexecute⟩

/-- With declared sort fields every answer from behind the lock is a page of the size of the
request. -/
theorem page_of_answerRepository {repository : MemoryRepository α} {sorter : Sorter α}
    {result : Except QueryError (Page α)}
    (hgood : ¬IsBadPage limits params.page (params.sizeOr limits.defaultSize))
    (hpage : PageSpec.assemble (Resource.descriptor α) params.page
      (params.sizeOr limits.defaultSize) params.direction params.sortFields = .ok page)
    (hprepare : prepare (Resource.descriptor α) limits params = .ok (q, page))
    (hsort : page.validateSort (Resource.descriptor α) = .ok ())
    (hpoisoned : repository.poisoned = false)
    (hresult : answerRepository repository sorter limits params = some result) :
    ∃ found, result = .ok found ∧
      ((Pagination.ofPage found).size.toNat : Int) = (params.sizeOr limits.defaultSize).toInt ∧
      (found.content.length : Int) ≤ (params.sizeOr limits.defaultSize).toInt ∧
      (params.sizeOr limits.defaultSize).toInt ≤ limits.maxSize.toInt := by
  simp only [IsBadPage, not_or, Int.not_lt] at hgood
  obtain ⟨hmax, -, hsize⟩ := hgood
  obtain ⟨-, hwidth, -⟩ := PageSpec.of_assemble hpage
  have hexecute := (reaches_of_prepare hprepare Option _).symm.trans hresult
  obtain ⟨selected, -, rfl⟩ := MemoryRepository.exists_perm_of_execute hsort hpoisoned hexecute
  have hpagination : (Pagination.ofPage (page.cut selected)).size.toNat = page.size.toNat := by
    rw [Pagination.ofPage, Pagination.toNat_size_of]
    show max page.size.toNat 1 = page.size.toNat
    omega
  have hlength : (page.cut selected).content.length ≤ page.size.toNat := List.length_take_le ..
  refine ⟨page.cut selected, rfl, ?_, ?_, hmax⟩
  · rw [hpagination]
    omega
  · omega

end Reached

/-- With settings in range, a request without a size asks for a good page. -/
theorem not_isBadPage_of_unsized {settings : Settings} (hsettings : settings.validate = .ok ())
    (hsize : params.size = none) (hindex : 0 ≤ params.page.toInt) :
    ¬IsBadPage settings.limits params.page (params.sizeOr settings.limits.defaultSize) := by
  obtain ⟨hdefault, hmax⟩ := settings.limits_of_validate hsettings
  simp only [IsBadPage, not_or, Int.not_lt, QueryParams.sizeOr, hsize, Option.getD_none]
  exact ⟨hmax, hindex, hdefault⟩

end Precedence

end Listing

end EntityQuery
