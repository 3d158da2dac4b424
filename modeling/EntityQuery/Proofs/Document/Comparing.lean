import EntityQuery.Proofs.Document.Matching
import EntityQuery.Proofs.Time.Writing
/-!
# Comparing stored values

The values of a filter are stored as the values of entities are, and the store compares
them as the program does. Texts and numbers have families of their own. Dates and instants
are stored as texts of one width, whose order is the order of time in the years that have
four digits.
-/

namespace EntityQuery

/-- The value is stored without loss and in its order: doubles are finite, and years have
four digits. -/
def FieldValue.IsStorable : FieldValue → Prop
  | decimal x => x.isFinite = true
  | date d => IsFourDigitYear d.year
  | dateTime t => IsFourDigitYear t.date.year
  | _ => True

namespace DocumentStore

variable {type : FieldType} {a b : FieldValue}

theorem isNaN_of_isStorable (h : a.IsStorable) : a.isNaN = false := by
  cases a with
  | decimal x => exact Binary64.not_isNaN_of_isFinite h
  | _ => rfl

theorem order?_storedValue (ha : type.accepts a = true) (hb : type.accepts b = true)
    (hsa : a.IsStorable) (hsb : b.IsStorable) :
    (storedValue a).order? (storedValue b) = a.compare? b := by
  have hna := isNaN_of_isStorable hsa
  have hnb := isNaN_of_isStorable hsb
  rw [FieldValue.compare?_eq_order? ha hb hna hnb]
  cases type <;> cases a <;> cases ha <;> cases b <;> cases hb <;>
    simp only [storedValue, Bson.order?, Bson.rank?, FieldValue.order?, Option.bind_some,
      Option.bind_none, Bson.Rank.order?]
  · rw [Binary64.cmp_number]
  · simp only [FieldValue.isNaN] at hna hnb
    simp [hna, hnb]
  · simp
  · rw [Text.cmp_encodeUtf8_ofList, Date.cmp_write hsa hsb, Date.compare_eq_cmp_epochDay]
  · rw [writeInstant, writeInstant, Text.cmp_encodeUtf8_ofList, Instant.cmp_write hsa hsb,
      Instant.compare_eq_cmp_tick]

/-- The program compares a whole number with a double as the nearest double, which the store
does not do. Nothing comes of it if the number is a double itself. -/
theorem order?_storedValue_of_isDouble {n : Int64} (hn : FieldValue.IsDouble n) {x : Binary64}
    (hx : x.isFinite = true) :
    (storedValue (.integer n)).order? (storedValue (.decimal x)) =
      (FieldValue.integer n).compare? (.decimal x) := by
  have hnx := Binary64.not_isNaN_of_isFinite hx
  have hcompare : (FieldValue.toBinary64 n).compare? x =
      some (cmp (((n.toInt : ℚ) : WithTop ℚ) : WithBot (WithTop ℚ)) x.value) := by
    rw [← hn]
    exact Binary64.compare?_eq (Binary64.isNaN_ofInt n.toInt) hnx
  simp only [storedValue, Bson.order?, Bson.rank?, hnx, FieldValue.compare?, hcompare]
  rfl

/-! ## Tests -/

theorem storedValue_ne_null (h : b ≠ .null) : storedValue b ≠ .null := by
  cases b <;> simp_all [storedValue]

theorem equals_of_ne_null (actual expected : Bson) (h : expected ≠ .null) :
    equals (some actual) expected = (actual.order? expected == some .eq) := by
  cases expected <;> simp_all [equals]

theorem ordered_some (accepts : Ordering → Bool) (actual expected : Bson) :
    ordered accepts (some actual) expected = (actual.order? expected).any accepts := rfl

/-- A stored value passes the tests of an operator exactly if it is not null and the operator
holds. It is enough that the store orders the two values as the program does, that values
other than null have an order, and that the textual operators meet texts. -/
theorem passes_ofComparison {op : Operator} (hb : b ≠ .null)
    (horder : (storedValue a).order? (storedValue b) = a.compare? b)
    (hknown : a ≠ .null → ∃ order, a.compare? b = some order)
    (htext : op.isTextual = true →
      (∃ part, b = .text part) ∧ (a ≠ .null → ∃ text, a = .text text)) :
    (Test.ofComparison op b).toDocument.all (passes (some (storedValue a))) =
      (!a.isNull && op.holds a b) := by
  by_cases ha : a = .null
  · subst ha
    have hnull : storedValue .null = .null := rfl
    have hnone : Bson.null.order? (storedValue b) = none := rfl
    have hunequal : equals (some .null) (storedValue b) = false :=
      equals_of_ne_null .null (storedValue b) (storedValue_ne_null hb)
    have hequal : equals (some .null) .null = true := rfl
    rw [hnull]
    cases op <;> simp [Test.ofComparison, Test.toDocument, passes, ordered_some, hnone, hunequal,
      hequal, FieldValue.isNull]
  · have hvalued : a.isNull = false := by cases a <;> simp_all [FieldValue.isNull]
    obtain ⟨order, hcompare⟩ := hknown ha
    have hequals := equals_of_ne_null (storedValue a) (storedValue b) (storedValue_ne_null hb)
    rw [horder, hcompare] at hequals
    cases htextual : op.isTextual with
    | false =>
        have hnotNull : equals (some (storedValue a)) .null = false := by
          have hne := storedValue_ne_null ha
          simp only [equals]
          split <;> simp_all
        cases op <;> cases htextual <;>
          simp [Test.ofComparison, Test.toDocument, passes, ordered_some, hequals, hnotNull, horder,
            hcompare, hvalued, Operator.holds, Operator.isTextual, bne]
    | true =>
        obtain ⟨⟨part, rfl⟩, hactual⟩ := htext htextual
        obtain ⟨text, rfl⟩ := hactual ha
        have hsearch : searchText (.text part) = part.toList := rfl
        cases op <;> cases htextual <;>
          simp [Test.ofComparison, Test.toDocument, passes, storedValue, hsearch,
            regexFound_contains, regexFound_startsWith, regexFound_endsWith, Operator.holds,
            Operator.isTextual, FieldValue.text?, FieldValue.isNull]

end DocumentStore

end EntityQuery
