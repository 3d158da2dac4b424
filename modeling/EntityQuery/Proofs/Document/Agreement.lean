import EntityQuery.Entity.Directory
import EntityQuery.Proofs.Compilation
import EntityQuery.Proofs.Document.Stored
/-!
# Filters and predicates agree

A compiled query reaches a document store as a filter over documents. The filter selects
the stored document of an entity exactly if the predicate of the query holds of the entity,
although the two are written by different code: both sides of every test turn a value into
the same stored form, and stored forms compare as the values do.

The filter takes the declared type of a column at its word. Where a column holds whole
numbers beyond those that doubles hold and is declared as doubles, or has the name of the
identifier's member, the two can disagree. So they can where the filter asks for a raw
identifier, under which nothing is stored.
-/

namespace EntityQuery

/-- Whether the instant that the filter asks for, if it asks for one, has a year with four
digits. -/
def Filter.HasFourDigitYear (d : Descriptor) (f : Filter) : Prop :=
  ∀ t, d.type? f.field = some .dateTime → FieldValue.ofRaw? .dateTime f.value = some (.dateTime t) →
    IsFourDigitYear t.date.year

/-- A value that was read from a filter can be stored, provided that an instant has a year
with four digits. -/
theorem FieldValue.isStorable_of_ofRaw? {type : FieldType} {raw : String} {v : FieldValue}
    (h : ofRaw? type raw = some v)
    (hyear : ∀ t, type = .dateTime → v = .dateTime t → IsFourDigitYear t.date.year) :
    v.IsStorable := by
  cases type with
  | decimal =>
      simp only [ofRaw?, readDecimal?, Option.map_eq_some_iff, Option.filter_eq_some_iff] at h
      obtain ⟨x, ⟨_, hfinite⟩, rfl⟩ := h
      exact hfinite
  | date =>
      simp only [ofRaw?, Option.map_eq_some_iff] at h
      obtain ⟨d, hd, rfl⟩ := h
      exact Date.isFourDigitYear_of_readFixed? hd
  | dateTime =>
      simp only [ofRaw?, Option.map_eq_some_iff] at h
      obtain ⟨t, _, rfl⟩ := h
      exact hyear t rfl rfl
  | enum constants =>
      simp only [ofRaw?, Option.ite_none_right_eq_some, Option.some.injEq] at h
      exact h.2 ▸ trivial
  | _ =>
      simp only [ofRaw?, Option.map_eq_some_iff, Option.some.injEq] at h
      first
        | exact h ▸ trivial
        | (obtain ⟨_, _, rfl⟩ := h; trivial)

namespace DocumentStore

/-! ## Conjunctions -/

theorem satisfiesAll_iff (doc : Document) (members : List Predicate) :
    satisfiesAll doc (Filter.toDocuments (Filter.ofPredicates members)) = true ↔
      ∀ p ∈ members, satisfies doc (Filter.ofPredicate p).toDocument = true := by
  induction members with
  | nil => simp [Filter.ofPredicates, Filter.toDocuments, satisfiesAll]
  | cons p rest ih => simp [Filter.ofPredicates, Filter.toDocuments, satisfiesAll, ih]

theorem satisfies_flat_iff {doc : Document} (members : List Predicate) :
    satisfies doc (Filter.ofPredicate (.flat members)).toDocument = true ↔
      ∀ p ∈ members, satisfies doc (Filter.ofPredicate p).toDocument = true := by
  match members with
  | [] => simp [Predicate.flat, Filter.ofPredicate, Filter.toDocument, satisfies]
  | [p] => simp [Predicate.flat]
  | p :: q :: rest =>
      have hall := satisfiesAll_iff doc (p :: q :: rest)
      rw [← hall]
      simp [Predicate.flat, Filter.ofPredicate, Filter.ofPredicates, Filter.toDocument,
        Filter.toDocuments, satisfies, satisfiesClause]

theorem exists_member_of_mem {conditions : List Condition} {f : Filter}
    (h : f ∈ Filter.ofPredicates (conditions.map .ofCondition)) :
    ∃ name test, f = .member name test := by
  induction conditions with
  | nil => cases h
  | cons c rest ih =>
      rw [List.map_cons, Filter.ofPredicates] at h
      obtain rfl | h := List.mem_cons.1 h
      · exact ⟨_, _, rfl⟩
      · exact ih h

theorem two_le_length_of_all {conditions : List Condition} {filters : List Filter}
    (h : Filter.ofPredicate (.flat (conditions.map .ofCondition)) = .all filters) :
    2 ≤ filters.length ∧ ∀ f ∈ filters, ∃ name test, f = .member name test := by
  match conditions with
  | [] => cases h
  | [_] => cases h
  | c :: c' :: rest =>
      have hfilters : filters = Filter.ofPredicates ((c :: c' :: rest).map .ofCondition) :=
        Filter.all.inj h.symm
      constructor
      · rw [hfilters, List.map_cons, List.map_cons, Filter.ofPredicates, Filter.ofPredicates,
          List.length_cons, List.length_cons]
        omega
      · intro f hf
        exact exists_member_of_mem (hfilters ▸ hf)

/-! ## Conditions -/

/-- The tests of an operator that applies to a field's type tell of what the field holds
whether the operator does. -/
theorem passes_of_holds {type : FieldType} {op : Operator} {a b : FieldValue}
    (hop : op.supports type = true) (ha : type.Holds a) (hb : type.accepts b = true)
    (hnull : b ≠ .null) (hsa : a.IsStorable) (hsb : b.IsStorable) :
    (Test.ofComparison op b).toDocument.all (passes (some (storedValue a))) =
      (!a.isNull && op.holds a b) := by
  have htextual (h : op.isTextual = true) : type.isTextual = true := by
    cases op <;> cases h <;> exact hop
  obtain haccepts | ⟨rfl, n, rfl, hn⟩ := ha
  · have hna := isNaN_of_isStorable hsa
    have hnb := isNaN_of_isStorable hsb
    refine passes_ofComparison hnull (order?_storedValue haccepts hb hsa hsb) ?_ ?_
    · intro hanull
      obtain ⟨order, horder⟩ := FieldValue.exists_order? haccepts hb hna hnb hanull hnull
      exact ⟨order, (FieldValue.compare?_eq_order? haccepts hb hna hnb).trans horder⟩
    · intro h
      exact ⟨FieldValue.exists_text (htextual h) hb hnull,
        FieldValue.exists_text (htextual h) haccepts⟩
  · obtain ⟨x, rfl⟩ : ∃ x, b = .decimal x := by
      cases b <;> cases hb
      · exact ⟨_, rfl⟩
      · exact absurd rfl hnull
    have hnx := isNaN_of_isStorable hsb
    refine passes_ofComparison hnull (order?_storedValue_of_isDouble hn hsb) ?_ ?_
    · intro _
      exact ⟨_, Binary64.compare?_eq (Binary64.isNaN_ofInt n.toInt) hnx⟩
    · intro h
      cases htextual h

variable {s : Schema} {e : Entity s}

/-- A condition that comes from a filter holds of an entity exactly if its filter selects a
document in which the entity is stored. -/
theorem satisfies_ofCondition_iff {doc : Document} (he : e.IsStorable) (hdoc : IsStoredIn e doc)
    {f : EntityQuery.Filter} {c : Condition} (hc : c.ReadFrom s.descriptor f)
    (hstored : storedName f.field = f.field) (hf : f.HasFourDigitYear s.descriptor) :
    satisfies doc (Filter.ofPredicate (.ofCondition c)).toDocument = true ↔
      (Predicate.ofCondition c).eval e.value? = true := by
  have htype : s.descriptor.type? c.field = some c.type := hc.field ▸ hc.declared
  obtain ⟨v, hv⟩ := e.exists_value_of_type? htype
  have hexpected : c.value.IsStorable := by
    refine FieldValue.isStorable_of_ofRaw? hc.value fun t hdateTime ht => hf t ?_ ?_
    · exact hdateTime ▸ hc.declared
    · rw [← hdateTime, ← ht]
      exact hc.value
  have htests := passes_of_holds (hc.operator ▸ hc.supported) (he.holds _ _ _ htype hv)
    (FieldValue.accepts_of_ofRaw? hc.value) (FieldValue.ofRaw?_some hc.value).1
    (he.storable _ _ hv) hexpected
  have hselected : satisfies doc (Filter.ofPredicate (.ofCondition c)).toDocument =
      (!v.isNull && c.operator.holds v c.value) := by
    rw [← htests, ← hdoc _ _ _ (hc.field ▸ hstored) htype hv]
    simp [Predicate.ofCondition, Filter.ofPredicate, Filter.toDocument, satisfies,
      satisfiesClause]
  rw [hselected, Predicate.ofCondition, Predicate.eval, hv]

/-- The same for conditions that come from a list of filters, taken together. -/
theorem satisfies_forall_iff {doc : Document} (he : e.IsStorable) (hdoc : IsStoredIn e doc)
    {filters : List EntityQuery.Filter} {conditions : List Condition}
    (h : List.Forall₂ (fun f c => Condition.ReadFrom s.descriptor f c) filters conditions)
    (hstored : ∀ f ∈ filters, storedName f.field = f.field)
    (hf : ∀ f ∈ filters, f.HasFourDigitYear s.descriptor) :
    (∀ p ∈ conditions.map Predicate.ofCondition,
        satisfies doc (Filter.ofPredicate p).toDocument = true) ↔
      ∀ p ∈ conditions.map Predicate.ofCondition, p.eval e.value? = true := by
  induction h with
  | nil => simp
  | @cons f c filters conditions hread _ ih =>
      rw [List.forall_mem_cons] at hstored hf
      have hfirst := satisfies_ofCondition_iff he hdoc hread hstored.1 hf.1
      rw [List.map_cons, List.forall_mem_cons, List.forall_mem_cons, hfirst, ih hstored.2 hf.2]

end DocumentStore

open DocumentStore in
/-- A storable entity has a document, and the filter of a compiled query selects it exactly if
the predicate of the query holds of the entity, as long as it asks for no raw identifiers. A
conjunction in the filter has two members or more, none of which is a conjunction. -/
theorem CompiledQuery.satisfies_iff_eval {s : Schema} {e : Entity s}
    {filters : Option (List Filter)} {q : CompiledQuery}
    (hs : ∀ c ∈ s.columns, c.key ≠ "_id") (he : e.IsStorable)
    (hq : compile s.descriptor filters = .ok q)
    (hstored : ∀ f ∈ filters.getD [], storedName f.field = f.field)
    (hf : ∀ f ∈ filters.getD [], f.HasFourDigitYear s.descriptor) :
    (∃ doc, documentOf e = .ok doc ∧
      (satisfies doc (DocumentStore.Filter.ofPredicate q.predicate).toDocument = true ↔
        q.predicate.eval e.value? = true)) ∧
    ∀ members, DocumentStore.Filter.ofPredicate q.predicate = .all members →
      2 ≤ members.length ∧ ∀ f ∈ members, ∃ name test, f = .member name test := by
  obtain ⟨conditions, rfl, hread⟩ := eq_ofConditions_of_compile hq
  obtain ⟨doc, hdoc, hholds⟩ := exists_document hs he
  refine ⟨⟨doc, hdoc, ?_⟩, fun members hmembers => two_le_length_of_all hmembers⟩
  rw [ofConditions, satisfies_flat_iff, Predicate.eval_flat_iff]
  exact satisfies_forall_iff he hholds hread hstored hf

open DocumentStore in
/-- A sign-in is found by a name with a line break and a dot, by its provider and by when it
was last used, whatever offset the filter writes the instant with. -/
theorem CompiledQuery.satisfies_signIn :
    let now : Instant := ⟨⟨2010, 11, 23, by decide⟩, 36930, 0, by decide, by decide⟩
    let e : Entity Directory.authentication :=
      .create (.ofNat 1) now (.cons (.value "a.b\nc") (.cons (.value ⟨"LOCAL", by decide⟩)
        (.cons (.value (.ofNat 2)) (.cons (.value true) (.cons (.value now)
          (.cons (.value (3 : Int64)) .nil))))))
    let filters : List Filter :=
      [⟨"username", ".b\nc", .endsWith⟩, ⟨"provider", "GITHUB", .notEqual⟩,
        ⟨"last_login", "2010-11-23T11:15:30.000+01:00", .greaterOrEqual⟩]
    ∃ q doc, compile Directory.authentication.descriptor filters = .ok q ∧ documentOf e = .ok doc ∧
      satisfies doc (DocumentStore.Filter.ofPredicate q.predicate).toDocument = true := by
  intro now e filters
  have hyear : IsFourDigitYear 2010 := ⟨by decide, by decide⟩
  have he : e.IsStorable := by
    constructor
    · intro name type v
      exact e.holds_of_fits (by decide)
    · intro name v
      apply Entity.storable_of_values hyear hyear
      intro field hfield
      simp only [e, Entity.create, Cells.values, List.mem_cons, List.not_mem_nil,
        or_false] at hfield
      obtain rfl | rfl | rfl | rfl | rfl | rfl := hfield
      case inr.inr.inr.inr.inl => exact hyear
      all_goals trivial
  have hinstant : FieldValue.ofRaw? .dateTime "2010-11-23T11:15:30.000+01:00" =
      some (.dateTime now) := by decide +kernel
  have hf : ∀ f ∈ filters, f.HasFourDigitYear Directory.authentication.descriptor := by
    intro f hf t htype hvalue
    simp only [filters, List.mem_cons, List.not_mem_nil, or_false] at hf
    obtain rfl | rfl | rfl := hf
    · cases htype
    · cases htype
    · rw [hinstant] at hvalue
      cases hvalue
      exact hyear
  have hq : compile Directory.authentication.descriptor filters = .ok (ofConditions
      [⟨"username", .text, .endsWith, .text ".b\nc"⟩,
        ⟨"provider", .enum Directory.providers, .notEqual, .enum "GITHUB"⟩,
        ⟨"last_login", .dateTime, .greaterOrEqual, .dateTime now⟩]) := by
    apply compile_of_forall₂ (by decide)
    exact .cons ⟨rfl, rfl, rfl, rfl, rfl⟩ (.cons ⟨rfl, rfl, rfl, rfl, rfl⟩
      (.cons ⟨rfl, rfl, rfl, hinstant, rfl⟩ .nil))
  obtain ⟨⟨doc, hdoc, hagree⟩, _⟩ := satisfies_iff_eval (by decide) he hq (by decide) hf
  exact ⟨_, doc, hq, hdoc, hagree.2 (by decide +kernel)⟩

/-! ## Misleading declarations -/

namespace CompiledQuery

/-- Books whose pages are whole numbers of 64 bits, declared as doubles. -/
def countedBook : Schema where
  singular := "book"
  plural := "books"
  columns := [⟨"pages", .int64, 0, .decimal⟩]

/-- Books with a column that has the name of the identifier's member. -/
def labelledBook : Schema :=
  ⟨"book", "books", labelledNote.columns, labelledNote.keys_nodup, labelledNote.keys_unmarked⟩

def markedBook : Schema :=
  ⟨"book", "books", markedNote.columns, markedNote.keys_nodup, markedNote.keys_unmarked⟩

/-- A book with the given columns, made at a fixed instant. -/
def book {s : Schema} (cells : Cells s.columns) : Entity s :=
  .create (.ofNat 1) morning cells

/-- A book of 9007199254740993 pages, which is not a double. -/
def longBook : Entity countedBook :=
  book (.cons (.value (9007199254740993 : Int64)) .nil)

def shortBook : Entity labelledBook :=
  book (.cons (.value "a") .nil)

def plainBook : Entity markedBook :=
  book (.cons (.value "a") .nil)

/-- The double has the value of the whole number before the pages of the long book. -/
theorem value_double : (⟨false, 1076, 0⟩ : Binary64).value =
    ((9007199254740992 : ℚ) : WithTop ℚ) := by
  have hfinite : (⟨false, 1076, 0⟩ : Binary64).isFinite = true := by decide
  rw [Binary64.value, if_pos hfinite]
  norm_num [Binary64.toRat, Binary64.absolute, Binary64.significand, Binary64.scale]

theorem order?_pages :
    (Bson.int64 9007199254740993).order? (.double ⟨false, 1076, 0⟩) = some .gt := by
  have hnumber : (⟨false, 1076, 0⟩ : Binary64).isNaN = false := by decide
  have hrank : (Bson.double ⟨false, 1076, 0⟩).rank? =
      some (.number ((9007199254740992 : ℚ) : WithTop ℚ)) := by
    simp only [Bson.rank?, hnumber, value_double]
    rfl
  have hgreater : cmp (((9007199254740993 : ℚ) : WithTop ℚ) : WithBot (WithTop ℚ))
      ((9007199254740992 : ℚ) : WithTop ℚ) = .gt :=
    (cmp_eq_gt_iff _ _).2 (Binary64.strictMono_number (by norm_num))
  rw [Bson.order?, hrank]
  exact congrArg some hgreater

open DocumentStore in
/-- Each declaration leads to a filter that does not select the document of an entity for
which the predicate holds, although every value can be stored. -/
theorem disagreement_of_declarations :
    ((∀ name v, longBook.value? name = some v → v.IsStorable) ∧
      ∃ q doc, compile countedBook.descriptor (some [⟨"pages", "9007199254740992", .equal⟩]) =
          .ok q ∧ documentOf longBook = .ok doc ∧ q.predicate.eval longBook.value? = true ∧
        satisfies doc (DocumentStore.Filter.ofPredicate q.predicate).toDocument = false) ∧
    ((∀ name v, shortBook.value? name = some v → v.IsStorable) ∧
      ∃ q doc, compile labelledBook.descriptor (some [⟨"_id", "a", .equal⟩]) = .ok q ∧
        documentOf shortBook = .ok doc ∧ q.predicate.eval shortBook.value? = true ∧
        satisfies doc (DocumentStore.Filter.ofPredicate q.predicate).toDocument = false) ∧
    (∀ name v, plainBook.value? name = some v → v.IsStorable) ∧
      ∃ q doc, compile markedBook.descriptor (some [⟨"r#type", "a", .equal⟩]) = .ok q ∧
        documentOf plainBook = .ok doc ∧ q.predicate.eval plainBook.value? = true ∧
        satisfies doc (DocumentStore.Filter.ofPredicate q.predicate).toDocument = false := by
  have hyear : IsFourDigitYear 2010 := ⟨by decide, by decide⟩
  refine ⟨⟨?_, ?_⟩, ⟨?_, ?_⟩, ?_, ?_⟩
  · intro name v hv
    exact Entity.storable_of_values hyear hyear (List.forall_mem_singleton.2 trivial) hv
  · have hvalue : FieldValue.ofRaw? .decimal "9007199254740992" =
        some (.decimal ⟨false, 1076, 0⟩) := by decide +kernel
    have hq : compile countedBook.descriptor (some [⟨"pages", "9007199254740992", .equal⟩]) =
        .ok (ofConditions [⟨"pages", .decimal, .equal, .decimal ⟨false, 1076, 0⟩⟩]) :=
      compile_of_forall₂ (by decide) (.cons ⟨rfl, rfl, rfl, hvalue, rfl⟩ .nil)
    have hdoc : documentOf longBook = .ok
        [("created_at", .string "2010-11-23T10:15:30.000000000Z"),
          ("updated_at", .string "2010-11-23T10:15:30.000000000Z"),
          ("pages", .int64 9007199254740993),
          ("_id", .string "00000000-0000-0000-0000-000000000001")] := rfl
    have hunequal : passes (some (.int64 9007199254740993)) ("$eq", .double ⟨false, 1076, 0⟩) =
        false := by
      simp [passes, equals, order?_pages]
    refine ⟨_, _, hq, hdoc, by decide +kernel, ?_⟩
    simp [ofConditions, Predicate.flat, Predicate.ofCondition, DocumentStore.Filter.ofPredicate,
      DocumentStore.Filter.toDocument, Test.ofComparison, Test.toDocument, storedValue, memberName,
      satisfies, satisfiesClause, Assoc.lookup_cons, hunequal]
  · intro name v hv
    exact Entity.storable_of_values hyear hyear (List.forall_mem_singleton.2 trivial) hv
  · have hq : compile labelledBook.descriptor (some [⟨"_id", "a", .equal⟩]) =
        .ok (ofConditions [⟨"_id", .text, .equal, .text "a"⟩]) :=
      compile_of_forall₂ (by decide) (.cons ⟨rfl, rfl, rfl, rfl, rfl⟩ .nil)
    have hdoc : documentOf shortBook = .ok
        [("created_at", .string "2010-11-23T10:15:30.000000000Z"),
          ("updated_at", .string "2010-11-23T10:15:30.000000000Z"),
          ("_id", .string "00000000-0000-0000-0000-000000000001")] := rfl
    exact ⟨_, _, hq, hdoc, by decide +kernel, by decide +kernel⟩
  · intro name v hv
    exact Entity.storable_of_values hyear hyear (List.forall_mem_singleton.2 trivial) hv
  · have hq : compile markedBook.descriptor (some [⟨"r#type", "a", .equal⟩]) =
        .ok (ofConditions [⟨"r#type", .text, .equal, .text "a"⟩]) :=
      compile_of_forall₂ (by decide) (.cons ⟨rfl, rfl, rfl, rfl, rfl⟩ .nil)
    have hdoc : documentOf plainBook = .ok
        [("created_at", .string "2010-11-23T10:15:30.000000000Z"),
          ("updated_at", .string "2010-11-23T10:15:30.000000000Z"), ("type", .string "a"),
          ("_id", .string "00000000-0000-0000-0000-000000000001")] := rfl
    exact ⟨_, _, hq, hdoc, by decide +kernel, by decide +kernel⟩

end CompiledQuery

end EntityQuery
