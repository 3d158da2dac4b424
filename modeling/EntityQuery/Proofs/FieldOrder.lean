import Mathlib.Data.Int.Order.Basic
import EntityQuery.Coercion
import EntityQuery.Proofs.Number.Whole
import EntityQuery.Proofs.Text.ByteOrder
import EntityQuery.Proofs.Time.Chronology
/-!
# The order of field values

What it means for one value of a field to come before another one, apart from how the
program finds out: texts and constants by their bytes, numbers by the numbers that they
denote, `false` before `true`, dates by the days and instants by the time that has
passed. On the values of one type, not-a-numbers apart, `compare?` computes this order.
-/

namespace EntityQuery.FieldValue

def isNaN : FieldValue → Bool
  | decimal x => x.isNaN
  | _ => false

/-- The order of two values of one form. Null has none, and what is not a number has none. -/
def order? : FieldValue → FieldValue → Option Ordering
  | text a, text b | enum a, enum b =>
    some (cmp (Text.encodeUtf8 a.toList) (Text.encodeUtf8 b.toList))
  | integer a, integer b => some (cmp a.toInt b.toInt)
  | decimal a, decimal b => if a.isNaN || b.isNaN then none else some (cmp a.value b.value)
  | boolean a, boolean b => some (cmp a b)
  | date a, date b => some (cmp a.epochDay b.epochDay)
  | dateTime a, dateTime b => some (cmp a.tick b.tick)
  | _, _ => none

theorem compare_eq_cmp_toInt (a b : Int64) : compare a b = cmp a.toInt b.toInt := by
  obtain h | h | h := lt_trichotomy a.toInt b.toInt
  · rw [h.cmp_eq_lt]
    exact if_pos (Int64.lt_iff_toInt_lt.2 h)
  · rw [Int64.toInt_inj.1 h]
    simp
  · rw [h.cmp_eq_gt]
    have hswap : compare b a = .lt := if_pos (Int64.lt_iff_toInt_lt.2 h)
    exact Std.OrientedCmp.gt_of_lt hswap

theorem compare?_eq_order? {type : FieldType} {a b : FieldValue} (ha : type.accepts a = true)
    (hb : type.accepts b = true) (hna : a.isNaN = false) (hnb : b.isNaN = false) :
    a.compare? b = a.order? b := by
  cases type <;> cases a <;> cases ha <;> cases b <;> cases hb <;>
    simp only [compare?, order?]
  · rw [Text.cmp_encodeUtf8]
  · rw [compare_eq_cmp_toInt]
  · simp only [isNaN] at hna hnb
    rw [Binary64.compare?_eq hna hnb, hna, hnb]
    rfl
  · rw [cmp_eq_compare]
  · rw [Text.cmp_encodeUtf8]
  · rw [Date.compare_eq_cmp_epochDay]
  · rw [Instant.compare_eq_cmp_tick]

theorem exists_order? {type : FieldType} {a b : FieldValue} (ha : type.accepts a = true)
    (hb : type.accepts b = true) (hna : a.isNaN = false) (hnb : b.isNaN = false)
    (hanull : a ≠ null) (hbnull : b ≠ null) : ∃ order, a.order? b = some order := by
  cases type <;> cases a <;> cases ha <;> cases b <;> cases hb <;>
    simp_all [order?, isNaN]

theorem exists_text {type : FieldType} {v : FieldValue} (htype : type.isTextual = true)
    (h : type.accepts v = true) (hnull : v ≠ null) : ∃ s, v = text s := by
  cases type <;> cases htype
  cases v <;> cases h
  · exact ⟨_, rfl⟩
  · exact absurd rfl hnull

/-- A value that was read from a filter is neither null nor a not-a-number. -/
theorem ofRaw?_some {type : FieldType} {raw : String} {v : FieldValue}
    (h : ofRaw? type raw = some v) : v ≠ null ∧ v.isNaN = false := by
  cases type with
  | enum constants =>
      simp only [ofRaw?, Option.ite_none_right_eq_some, Option.some.injEq] at h
      rw [← h.2]
      exact ⟨by simp, rfl⟩
  | decimal =>
      simp only [ofRaw?, readDecimal?, Option.map_eq_some_iff, Option.filter_eq_some_iff] at h
      obtain ⟨x, ⟨_, hfinite⟩, rfl⟩ := h
      exact ⟨by simp, Binary64.not_isNaN_of_isFinite hfinite⟩
  | _ =>
      simp only [ofRaw?, Option.map_eq_some_iff, Option.some.injEq] at h
      first
        | (subst h; exact ⟨by simp, rfl⟩)
        | (obtain ⟨_, _, rfl⟩ := h; exact ⟨by simp, rfl⟩)

/-- The whole number is a double: rounding it to the nearest double does not change it. -/
def IsDouble (n : Int64) : Prop :=
  (toBinary64 n).value = ((n.toInt : ℚ) : WithTop ℚ)

theorem isDouble_of_lt {n : Int64} (h : n.toInt.natAbs < 2 ^ 53) : IsDouble n :=
  Binary64.value_ofInt h

end EntityQuery.FieldValue
