import Mathlib.Order.Compare
import Mathlib.Order.CountableDenseLinearOrder
import Mathlib.Order.Fin.Basic
import Mathlib.Tactic.Linarith
import Mathlib.Tactic.Ring
import EntityQuery.Time.Instant
/-!
# Dates and instants in the order of time

Dates are compared by year, month and day, and instants by date, second and nanosecond.
Both orders are the order of time: `Date.epochDay` counts the days from 1970-01-01, and
`Instant.tick` counts half-nanosecond steps, of which a second has two thousand
million so that a leap second has room behind second 59.
-/

namespace EntityQuery

/-- Where one of two orders has less and greater the other has them too. -/
theorem cmp_eq_cmp_of_lt_iff {α : Type u} {β : Type v} [LT α] [DecidableLT α] [LT β] [DecidableLT β]
    {a a' : α} {b b' : β} (hlt : a < a' ↔ b < b') (hgt : a' < a ↔ b' < b) :
    cmp a a' = cmp b b' := by
  simp only [cmp, cmpUsing, hlt, hgt]

/-- Numbers in base `k` compare by their leading parts and then by their last digits. -/
theorem then_cmp_eq_cmp {k q q' r r' : Int} (hr : 0 ≤ r ∧ r < k) (hr' : 0 ≤ r' ∧ r' < k) :
    (cmp q q').then (cmp r r') = cmp (q * k + r) (q' * k + r') := by
  obtain h | rfl | h := lt_trichotomy q q'
  · have hlt : q * k + r < q' * k + r' := by nlinarith
    rw [h.cmp_eq_lt, hlt.cmp_eq_lt]
    rfl
  · rw [cmp_self_eq_eq, Ordering.eq_then]
    exact ((strictMono_id.const_add (q * k)).cmp_map_eq r r').symm
  · have hlt : q' * k + r' < q * k + r := by nlinarith
    rw [h.cmp_eq_gt, hlt.cmp_eq_gt]
    rfl

namespace Date

theorem yearStart_succ (year : Int) :
    yearStart (year + 1) = yearStart year + (if isLeapYear year then 366 else 365) := by
  have hleap : isLeapYear year = true ↔ year % 4 = 0 ∧ (year % 100 ≠ 0 ∨ year % 400 = 0) := by
    simp [isLeapYear]
  simp only [yearStart]
  split
  · next h =>
      have hdays := hleap.1 h
      omega
  · next h =>
      have hdays := mt hleap.2 h
      omega

theorem yearStart_mono {year year' : Int} (h : year ≤ year') :
    yearStart year ≤ yearStart year' := by
  simp only [yearStart]
  omega

theorem monthStart_succ (year : Int) {month : Nat} (h : 1 ≤ month) :
    monthStart year (month + 1) = monthStart year month + daysInMonth year month := by
  obtain _ | month := month
  · omega
  · rfl

theorem monthStart_mono (year : Int) {month month' : Nat} (h : month ≤ month') :
    monthStart year month ≤ monthStart year month' := by
  induction h with
  | refl => rfl
  | @step month'' _ ih =>
      obtain _ | month'' := month''
      · exact ih
      · exact ih.trans (Nat.le_add_right ..)

theorem monthStart_thirteen (year : Int) :
    monthStart year 13 = if isLeapYear year then 366 else 365 := by
  cases h : isLeapYear year <;> simp [monthStart, daysInMonth, h]

/-- Every day of a month lies before the next month begins. -/
theorem dayOfYear_le {d : Date} {month : Nat} (h : d.month < month) :
    monthStart d.year d.month + d.day ≤ monthStart d.year month := by
  obtain ⟨_, hmonth, _, hday⟩ := d.valid
  have hnext := monthStart_mono d.year (Nat.succ_le_of_lt h)
  rw [Nat.succ_eq_add_one, monthStart_succ d.year hmonth.1] at hnext
  omega

variable {a b : Date}

/-- The first of two dates in the order of year, month and day comes first in time. -/
theorem epochDay_lt_epochDay
    (h : a.year < b.year ∨ a.year = b.year ∧
      (a.month < b.month ∨ a.month = b.month ∧ a.day < b.day)) :
    a.epochDay < b.epochDay := by
  obtain ⟨_, ⟨_, hmonth⟩, _⟩ := a.valid
  obtain ⟨_, _, hday, _⟩ := b.valid
  simp only [epochDay]
  obtain hyear | ⟨hyear, hmonths | ⟨hmonths, hdays⟩⟩ := h
  · have hstart := yearStart_mono (Int.add_one_le_of_lt hyear)
    have hlast : a.month < 13 := by omega
    have hend := dayOfYear_le hlast
    have hfill := monthStart_thirteen a.year
    rw [yearStart_succ] at hstart
    split at hstart <;> simp_all <;> omega
  · have hstart := dayOfYear_le (d := a) hmonths
    rw [hyear] at hstart ⊢
    omega
  · rw [hyear, hmonths]
    omega

theorem compare_eq (a b : Date) :
    compare a b =
      (cmp a.year b.year).then ((cmp a.month b.month).then (cmp a.day b.day)) := by
  rw [cmp_eq_compare, cmp_eq_compare, cmp_eq_compare]
  rfl

theorem compare_eq_eq_iff {a b : Date} : compare a b = .eq ↔ a = b := by
  rw [compare_eq, Ordering.then_eq_eq, Ordering.then_eq_eq, cmp_eq_eq_iff, cmp_eq_eq_iff,
    cmp_eq_eq_iff]
  cases a
  cases b
  simp only [mk.injEq]

/-- Dates compare as the days do that have passed. -/
theorem compare_eq_cmp_epochDay (a b : Date) : compare a b = cmp a.epochDay b.epochDay := by
  rw [compare_eq]
  obtain hyear | hyear | hyear := lt_trichotomy a.year b.year
  · rw [hyear.cmp_eq_lt, (epochDay_lt_epochDay (.inl hyear)).cmp_eq_lt]
    rfl
  · obtain hmonth | hmonth | hmonth := lt_trichotomy a.month b.month
    · rw [hyear, cmp_self_eq_eq, hmonth.cmp_eq_lt,
        (epochDay_lt_epochDay (.inr ⟨hyear, .inl hmonth⟩)).cmp_eq_lt]
      rfl
    · have hdays : a.epochDay = yearStart b.year + monthStart b.year b.month - 1 + a.day := by
        rw [epochDay, hyear, hmonth]
        ring
      have hdays' : b.epochDay = yearStart b.year + monthStart b.year b.month - 1 + b.day := by
        rw [epochDay]
        ring
      rw [hyear, hmonth, cmp_self_eq_eq, cmp_self_eq_eq, hdays, hdays']
      exact ((Nat.strictMono_cast.const_add _).cmp_map_eq a.day b.day).symm
    · rw [hyear, cmp_self_eq_eq, hmonth.cmp_eq_gt,
        (epochDay_lt_epochDay (.inr ⟨hyear.symm, .inl hmonth⟩)).cmp_eq_gt]
      rfl
  · rw [hyear.cmp_eq_gt, (epochDay_lt_epochDay (.inl hyear)).cmp_eq_gt]
    rfl

end Date

namespace Instant

/-- Steps from 1970-01-01, a second having two thousand million of them. -/
def tick (t : Instant) : Int :=
  (t.date.epochDay * 86400 + t.second.val) * 2000000000 + t.nano

theorem compare_eq (a b : Instant) :
    compare a b =
      (compare a.date b.date).then ((cmp a.second b.second).then (cmp a.nano b.nano)) := by
  rw [cmp_eq_compare, cmp_eq_compare]
  rfl

theorem eq_of_parts {t u : Instant} (hdate : t.date = u.date)
    (hsecond : t.second.val = u.second.val) (hnano : t.nano = u.nano) : t = u := by
  obtain ⟨date, second, nano, _, _⟩ := t
  obtain ⟨date', second', nano', _, _⟩ := u
  cases hdate
  cases Fin.ext hsecond
  cases hnano
  rfl

theorem compare_eq_eq_iff {a b : Instant} : compare a b = .eq ↔ a = b := by
  rw [compare_eq, Ordering.then_eq_eq, Ordering.then_eq_eq, Date.compare_eq_eq_iff, cmp_eq_eq_iff,
    cmp_eq_eq_iff]
  constructor
  · rintro ⟨hdate, hsecond, hnano⟩
    exact eq_of_parts hdate (congrArg Fin.val hsecond) hnano
  · rintro rfl
    exact ⟨rfl, rfl, rfl⟩

/-- Instants compare as the steps do that have passed. -/
theorem compare_eq_cmp_tick (a b : Instant) : compare a b = cmp a.tick b.tick := by
  have hsecond : cmp a.second b.second = cmp (a.second.val : Int) b.second.val :=
    ((Nat.strictMono_cast.comp Fin.val_strictMono).cmp_map_eq a.second b.second).symm
  have hnano : cmp a.nano b.nano = cmp (a.nano : Int) b.nano :=
    (Nat.strictMono_cast.cmp_map_eq a.nano b.nano).symm
  have ha := a.nano_lt
  have hb := b.nano_lt
  rw [compare_eq, Date.compare_eq_cmp_epochDay, hsecond, hnano, ← Ordering.then_assoc,
    then_cmp_eq_cmp (k := 86400) (by omega) (by omega),
    then_cmp_eq_cmp (k := 2000000000) (by omega) (by omega)]
  rfl

end Instant

end EntityQuery
