import EntityQuery.Proofs.Compilation.Joining
import EntityQuery.Proofs.Document.Agreement
/-!
# Filters and absent members

No comparison holds of a field that is null or missing. Compiled queries keep this in a
document store, but predicates can also be made by hand, with any operator and any value. A
value that is null asks the store for null, and null is equal to null and within the bounds
that are null themselves. Only an unequal value is asked for in a way that excludes null.

Here the tests that ask for null within bounds get the meaning that they have in the store;
all other tests are read as in `passes`. It is left open whether the store lets a missing
member pass such a bound. Names are looked up as they stand, which is right for names that
have no dots and do not begin with a dollar sign.
-/

namespace EntityQuery

namespace Predicate

mutual

/-- No conjunction in the predicate is empty. -/
def isInhabited : Predicate → Bool
  | always => true
  | compare _ _ _ => true
  | all members => !members.isEmpty && areInhabited members

def areInhabited : List Predicate → Bool
  | [] => true
  | p :: rest => p.isInhabited && areInhabited rest

end

/-- The comparisons of a flat conjunction of conditions are those of the conditions. -/
theorem leaves_flat_ofCondition (conditions : List Condition) :
    (flat (conditions.map .ofCondition)).leaves = conditions.map .ofCondition := by
  induction conditions using List.reverseRecOn with
  | nil => rfl
  | append_singleton rest c ih =>
      rw [← flat_and_ofCondition, leaves_and, ih, List.map_append]
      rfl

end Predicate

namespace DocumentStore

/-! ## Reading filters -/

section Reading

variable (reads : Option Bson → String × Bson → Bool)

mutual

/-- Whether a document satisfies every clause of a filter, with a reading of the tests. -/
def satisfiesBy (doc : Document) : Document → Bool
  | [] => true
  | (name, clause) :: rest => satisfiesClauseBy doc name clause && satisfiesBy doc rest

def satisfiesClauseBy (doc : Document) (name : String) : Bson → Bool
  | .array filters => name = "$and" && !filters.isEmpty && satisfiesAllBy doc filters
  | .document tests => tests.all (reads (Assoc.lookup name doc))
  | _ => false

def satisfiesAllBy (doc : Document) : List Bson → Bool
  | [] => true
  | .document filter :: rest => satisfiesBy doc filter && satisfiesAllBy doc rest
  | _ :: _ => false

end

variable {reads}

theorem satisfiesBy_compare (doc : Document) (field : String) (op : Operator)
    (value : FieldValue) :
    satisfiesBy reads doc (Filter.ofPredicate (.compare field op value)).toDocument =
      (Test.ofComparison op value).toDocument.all (reads (Assoc.lookup (memberName field) doc)) := by
  simp [Filter.ofPredicate, Filter.toDocument, satisfiesBy, satisfiesClauseBy]

-- A tree is followed into the list of its members.
mutual

/-- The filter of a tree selects what the filters of its comparisons select, provided that no
conjunction is empty. -/
theorem satisfiesBy_eq_all_leaves (doc : Document) :
    ∀ p : Predicate, satisfiesBy reads doc (Filter.ofPredicate p).toDocument =
      (p.isInhabited && p.leaves.all fun leaf =>
        satisfiesBy reads doc (Filter.ofPredicate leaf).toDocument)
  | .always => rfl
  | .compare _ _ _ => by simp [Predicate.isInhabited, Predicate.leaves]
  | .all [] => rfl
  | .all (p :: rest) => by
      simp [Filter.ofPredicate, Filter.ofPredicates, Filter.toDocument, Filter.toDocuments,
        satisfiesBy, satisfiesClauseBy, Predicate.isInhabited, Predicate.leaves,
        ← satisfiesAllBy_eq_all_leavesAll doc (p :: rest)]

theorem satisfiesAllBy_eq_all_leavesAll (doc : Document) :
    ∀ ps : List Predicate, satisfiesAllBy reads doc (Filter.toDocuments (Filter.ofPredicates ps)) =
      (Predicate.areInhabited ps && (Predicate.leavesAll ps).all fun leaf =>
        satisfiesBy reads doc (Filter.ofPredicate leaf).toDocument)
  | [] => rfl
  | p :: rest => by
      rw [Filter.ofPredicates, Filter.toDocuments, satisfiesAllBy, Predicate.areInhabited,
        Predicate.leavesAll, List.all_append, satisfiesBy_eq_all_leaves doc p,
        satisfiesAllBy_eq_all_leavesAll doc rest]
      ac_rfl

end

mutual

theorem satisfiesBy_passes (doc : Document) :
    ∀ p : Predicate, satisfiesBy passes doc (Filter.ofPredicate p).toDocument =
      satisfies doc (Filter.ofPredicate p).toDocument
  | .always => rfl
  | .compare _ _ _ => rfl
  | .all members => by
      rw [Filter.ofPredicate, Filter.toDocument, satisfiesBy, satisfies, satisfiesClauseBy,
        satisfiesClause, satisfiesAllBy_passes doc members]
      rfl

theorem satisfiesAllBy_passes (doc : Document) :
    ∀ ps : List Predicate, satisfiesAllBy passes doc (Filter.toDocuments (Filter.ofPredicates ps)) =
      satisfiesAll doc (Filter.toDocuments (Filter.ofPredicates ps))
  | [] => rfl
  | p :: rest => by
      rw [Filter.ofPredicates, Filter.toDocuments, satisfiesAllBy, satisfiesAll,
        satisfiesBy_passes doc p, satisfiesAllBy_passes doc rest]

end

end Reading

/-! ## Null -/

/-- Whether a member passes a test, where null is within the bounds that are null. `missing`
tells whether a missing member is within them, too. -/
def passesWithNull (missing : Bool) (actual : Option Bson) (test : String × Bson) : Bool :=
  match test with
  | ("$gte", .null) | ("$lte", .null) =>
    match actual with
    | none => missing
    | some .null => true
    | some _ => false
  | _ => passes actual test

def selects (missing : Bool) (doc : Document) (p : Predicate) : Bool :=
  satisfiesBy (passesWithNull missing) doc (Filter.ofPredicate p).toDocument

def AsksForNull (op : Operator) (value : FieldValue) : Prop :=
  value = .null ∧ (op = .equal ∨ op = .greaterOrEqual ∨ op = .lessOrEqual)

/-- The document has null or nothing in the place of a field. -/
def IsAbsent (doc : Document) (field : String) : Prop :=
  Assoc.lookup (memberName field) doc = none ∨ Assoc.lookup (memberName field) doc = some .null

section Absence

variable {missing : Bool} {doc : Document} {field : String} {op : Operator} {value : FieldValue}

theorem passesWithNull_of_ne_null {expected : Bson} (h : expected ≠ .null) (actual : Option Bson)
    (name : String) : passesWithNull missing actual (name, expected) =
      passes actual (name, expected) := by
  simp only [passesWithNull]
  split <;> simp_all

/-- Bounds that are values are read as ever. -/
theorem all_passesWithNull_of_ne_null (hvalue : value ≠ .null) (actual : Option Bson) :
    (Test.ofComparison op value).toDocument.all (passesWithNull missing actual) =
      (Test.ofComparison op value).toDocument.all (passes actual) := by
  have hstored := storedValue_ne_null hvalue
  cases op <;> simp [Test.ofComparison, Test.toDocument, passesWithNull_of_ne_null, hstored]

section Absent

variable {actual : Option Bson} (h : actual = none ∨ actual = some .null)

include h

theorem not_ordered_of_absent (accepts : Ordering → Bool) (expected : Bson) :
    ordered accepts actual expected = false := by
  obtain rfl | rfl := h <;> rfl

theorem not_regex_of_absent (pattern : String) :
    passes actual ("$regex", .string pattern) = false := by
  obtain rfl | rfl := h <;> rfl

theorem equals_of_absent (expected : Bson) : equals actual expected = true ↔ expected = .null := by
  constructor
  · intro hequal
    by_contra hexpected
    obtain rfl | rfl := h
    · cases expected <;> simp_all [equals]
    · rw [equals_of_ne_null _ _ hexpected] at hequal
      cases hequal
  · rintro rfl
    obtain rfl | rfl := h <;> rfl

theorem not_all_passesWithNull (hvalue : value ≠ .null) :
    (Test.ofComparison op value).toDocument.all (passesWithNull missing actual) = false := by
  have hunequal : equals actual (storedValue value) = false := by
    rw [← Bool.not_eq_true, equals_of_absent h]
    exact storedValue_ne_null hvalue
  have hnull : equals actual .null = true := (equals_of_absent h .null).2 rfl
  have hregex := not_regex_of_absent h
  simp only [passes] at hregex
  rw [all_passesWithNull_of_ne_null hvalue]
  cases op <;>
    simp [Test.ofComparison, Test.toDocument, passes, hregex, not_ordered_of_absent h, hunequal,
      hnull]

end Absent

/-- Null passes the tests that ask for null, which are those of three operators. -/
theorem all_passesWithNull_null :
    (Test.ofComparison op .null).toDocument.all (passesWithNull missing (some .null)) = true ↔
      AsksForNull op .null := by
  cases op <;>
    simp [Test.ofComparison, Test.toDocument, storedValue, passesWithNull, passes, equals, ordered,
      Bson.order?, Bson.rank?, AsksForNull]

theorem all_passesWithNull_none :
    (Test.ofComparison op .null).toDocument.all (passesWithNull missing none) = true ↔
      AsksForNull op .null ∧ (op = .equal ∨ missing = true) := by
  cases op <;>
    simp [Test.ofComparison, Test.toDocument, storedValue, passesWithNull, passes, equals, ordered,
      AsksForNull]

theorem not_selects_compare (habsent : IsAbsent doc field) (h : ¬AsksForNull op value) :
    selects missing doc (.compare field op value) = false := by
  rw [selects, satisfiesBy_compare]
  by_cases hvalue : value = .null
  · subst hvalue
    rw [← Bool.not_eq_true]
    obtain hlookup | hlookup := habsent
    · rw [hlookup, all_passesWithNull_none]
      exact fun hnone => h hnone.1
    · rw [hlookup, all_passesWithNull_null]
      exact h
  · exact not_all_passesWithNull habsent hvalue

/-- A tree selects nothing that one of its comparisons does not select. -/
theorem not_selects_of_mem_leaves {p leaf : Predicate} (hleaf : leaf ∈ p.leaves)
    (h : selects missing doc leaf = false) : selects missing doc p = false := by
  rw [selects, satisfiesBy_eq_all_leaves, Bool.and_eq_false_iff, List.all_eq_false]
  exact .inr ⟨leaf, hleaf, by simpa [selects] using h⟩

/-- A comparison selects null exactly if it asks for null. -/
theorem selects_compare_null (hlookup : Assoc.lookup (memberName field) doc = some .null) :
    selects missing doc (.compare field op value) = true ↔ AsksForNull op value := by
  constructor
  · intro hselects
    by_contra h
    rw [not_selects_compare (.inr hlookup) h] at hselects
    cases hselects
  · rintro ⟨rfl, hop⟩
    rw [selects, satisfiesBy_compare, hlookup, all_passesWithNull_null]
    exact ⟨rfl, hop⟩

theorem selects_compare_missing (hlookup : Assoc.lookup (memberName field) doc = none) :
    selects missing doc (.compare field op value) = true ↔
      AsksForNull op value ∧ (op = .equal ∨ missing = true) := by
  constructor
  · intro hselects
    by_cases h : AsksForNull op value
    · obtain ⟨rfl, _⟩ := h
      rw [selects, satisfiesBy_compare, hlookup, all_passesWithNull_none] at hselects
      exact hselects
    · rw [not_selects_compare (.inl hlookup) h] at hselects
      cases hselects
  · rintro ⟨⟨rfl, hop⟩, hreaches⟩
    rw [selects, satisfiesBy_compare, hlookup, all_passesWithNull_none]
    exact ⟨⟨rfl, hop⟩, hreaches⟩

end Absence

theorem ne_null_of_compile {d : Descriptor} {filters : Option (List EntityQuery.Filter)}
    {q : CompiledQuery} (hq : CompiledQuery.compile d filters = .ok q) {field : String}
    {op : Operator} {value : FieldValue} (h : .compare field op value ∈ q.predicate.leaves) :
    value ≠ .null := by
  obtain ⟨conditions, rfl, hread⟩ := CompiledQuery.eq_ofConditions_of_compile hq
  rw [CompiledQuery.ofConditions, Predicate.leaves_flat_ofCondition] at h
  obtain ⟨c, hc, hcompare⟩ := List.mem_map.1 h
  obtain ⟨f, _, hcf⟩ := (Condition.mem_iff_of_forall₂ hread).1 hc
  cases hcompare
  exact (FieldValue.ofRaw?_some hcf.value).1

/-- Where the field of a comparison is null or missing, the comparison does not hold, and
neither does any tree with it. In a store the comparison rejects all these documents exactly
if it does not ask for null, and then so does any tree with it. A comparison that asks for
null selects all documents with null in the place of the field, and those without the field
if it asks for equality or the store counts what is missing as null in bounds. In compiled
queries no comparison asks for null. -/
theorem absent_rejected_iff (missing : Bool) (field : String) (op : Operator)
    (value : FieldValue) :
    (∀ (p : Predicate) (lookup : String → Option FieldValue), .compare field op value ∈ p.leaves →
      lookup field = none ∨ lookup field = some .null → p.eval lookup = false) ∧
    ((∀ doc, IsAbsent doc field → selects missing doc (.compare field op value) = false) ↔
      ¬AsksForNull op value) ∧
    (∀ doc, Assoc.lookup (memberName field) doc = some .null →
      (selects missing doc (.compare field op value) = true ↔ AsksForNull op value)) ∧
    (∀ doc, Assoc.lookup (memberName field) doc = none →
      (selects missing doc (.compare field op value) = true ↔
        AsksForNull op value ∧ (op = .equal ∨ missing = true))) ∧
    (∀ (p : Predicate) (doc : Document), .compare field op value ∈ p.leaves →
      IsAbsent doc field → ¬AsksForNull op value → selects missing doc p = false) ∧
    ∀ d filters q, CompiledQuery.compile d filters = .ok q →
      .compare field op value ∈ q.predicate.leaves →
        ¬AsksForNull op value ∧
        ∀ doc, IsAbsent doc field → selects missing doc q.predicate = false := by
  have htree : ∀ (p : Predicate) (doc : Document), .compare field op value ∈ p.leaves →
      IsAbsent doc field → ¬AsksForNull op value → selects missing doc p = false := by
    intro p doc hleaf habsent h
    exact not_selects_of_mem_leaves hleaf (not_selects_compare habsent h)
  refine ⟨?_, ?_, fun _ => selects_compare_null, fun _ => selects_compare_missing, htree, ?_⟩
  · intro p lookup hleaf habsent
    apply Predicate.eval_of_mem_leaves hleaf
    obtain hlookup | hlookup := habsent <;> simp [Predicate.eval, hlookup, FieldValue.isNull]
  · constructor
    · intro hrejects hasks
      have hlookup : Assoc.lookup (memberName field) [(memberName field, Bson.null)] =
        some .null := by simp [Assoc.lookup_cons]
      have hselects : selects missing [(memberName field, .null)] (.compare field op value) =
        true := (selects_compare_null hlookup).2 hasks
      rw [hrejects _ (.inr hlookup)] at hselects
      cases hselects
    · intro h doc habsent
      exact not_selects_compare habsent h
  · intro d filters q hq hleaf
    have h : ¬AsksForNull op value := fun hasks => ne_null_of_compile hq hleaf hasks.1
    refine ⟨h, ?_⟩
    intro doc habsent
    exact htree q.predicate doc hleaf habsent h

/-- A comparison for equality with null holds of no nickname, but selects the documents whose
nickname is null or missing, and the bounds that are null select the former. -/
theorem null_nicknames_selected :
    let nickname (op : Operator) : Predicate := .compare "nickname" op .null
    (nickname .equal).eval (fun _ => some .null) = false ∧
      (nickname .equal).eval (fun _ => none) = false ∧
      selects false [("nickname", .null)] (nickname .equal) = true ∧
      selects false [] (nickname .equal) = true ∧
      selects false [("nickname", .null)] (nickname .greaterOrEqual) = true ∧
      selects false [("nickname", .null)] (nickname .lessOrEqual) = true := by
  decide

end DocumentStore

end EntityQuery
