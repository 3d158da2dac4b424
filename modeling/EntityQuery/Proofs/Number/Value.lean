import Mathlib.Algebra.Order.Field.Power
import Mathlib.Algebra.Order.Ring.Rat
import Mathlib.Order.Compare
import Mathlib.Order.WithBot
import Mathlib.Tactic.Linarith
import Mathlib.Tactic.Positivity
import Mathlib.Tactic.Ring
import EntityQuery.Number.Binary64
/-!
# The numbers that doubles denote

A finite double denotes a fraction, and the infinities lie beyond all fractions. The
program never computes these numbers: it compares doubles by their rank, which is read
off the bits. The rank grows exactly with the number, so both comparisons agree on all
doubles that are numbers.
-/

namespace EntityQuery.Binary64

variable {x y : Binary64}

def absolute (x : Binary64) : ℚ :=
  x.significand * 2 ^ x.scale

def toRat (x : Binary64) : ℚ :=
  if x.negative then -x.absolute else x.absolute

/-- The number that a double denotes, the infinities lying below and above all others. -/
def value (x : Binary64) : WithBot (WithTop ℚ) :=
  if x.isFinite then ((x.toRat : WithTop ℚ) : WithBot (WithTop ℚ))
  else if x.negative then ⊥ else ⊤

theorem isFinite_iff : x.isFinite = true ↔ x.magnitude < infinite := by
  simp [isFinite]

theorem magnitude_le_of_not_isNaN (h : x.isNaN = false) : x.magnitude ≤ infinite := by
  simpa [isNaN] using h

theorem not_isNaN_of_isFinite (h : x.isFinite = true) : x.isNaN = false := by
  simpa [isNaN] using (isFinite_iff.1 h).le

/-! ## Magnitudes -/

theorem value_of_isFinite (h : x.isFinite = true) :
    x.value = ((x.toRat : WithTop ℚ) : WithBot (WithTop ℚ)) :=
  if_pos h

theorem isFinite_of_value_eq {q : ℚ} (h : x.value = ((q : WithTop ℚ) : WithBot (WithTop ℚ))) :
    x.isFinite = true := by
  rw [value] at h
  split_ifs at h with hfinite
  · exact hfinite
  · cases h
  · cases h

theorem absolute_nonneg (x : Binary64) : 0 ≤ x.absolute := by
  simp only [absolute]
  positivity

theorem absolute_eq_zero (h : x.magnitude = 0) : x.absolute = 0 := by
  have hexponent : x.exponent.val = 0 := by
    simp only [magnitude] at h
    omega
  have hfraction : x.fraction.val = 0 := by
    simp only [magnitude] at h
    omega
  simp [absolute, significand, hexponent, hfraction]

/-- Both zeros denote zero. -/
theorem value_of_magnitude_eq_zero (h : x.magnitude = 0) :
    x.value = (((0 : ℚ) : WithTop ℚ) : WithBot (WithTop ℚ)) := by
  have hfinite : x.isFinite = true := isFinite_iff.2 (h ▸ by decide)
  simp [value, hfinite, toRat, absolute_eq_zero h]

/-- The significand of a double has at most 53 bits. -/
theorem significand_lt (x : Binary64) : x.significand < 2 ^ 53 := by
  have hfraction := x.fraction.isLt
  simp only [significand]
  split <;> omega

/-- A double above the smallest scale has a significand of 53 bits. -/
theorem le_significand (h : 1 ≤ x.exponent.val) : 2 ^ 52 ≤ x.significand := by
  simp only [significand]
  rw [if_neg (by omega)]
  omega

/-- Of two doubles of one scale, the one with the greater magnitude has the greater
significand. -/
theorem significand_lt_significand (h : x.magnitude < y.magnitude) (hscale : x.scale = y.scale) :
    x.significand < y.significand := by
  have hx := x.fraction.isLt
  have hy := y.fraction.isLt
  simp only [scale] at hscale
  simp only [magnitude] at h
  simp only [significand]
  split <;> split <;> omega

theorem scale_le_scale (h : x.magnitude < y.magnitude) : x.scale ≤ y.scale := by
  have hx := x.fraction.isLt
  have hy := y.fraction.isLt
  simp only [magnitude] at h
  simp only [scale]
  omega

/-- The absolute value grows with the magnitude: within a scale by the significand, and
from one scale to the next one because a significand has 53 bits. -/
theorem absolute_lt_absolute (h : x.magnitude < y.magnitude) : x.absolute < y.absolute := by
  simp only [absolute]
  obtain hscale | hscale := (scale_le_scale h).lt_or_eq
  · have hone : 1 ≤ y.exponent.val := by
      simp only [scale] at hscale
      omega
    have hx : (x.significand : ℚ) < 2 ^ 53 := mod_cast x.significand_lt
    have hy : (2 : ℚ) ^ 52 ≤ y.significand := mod_cast le_significand hone
    calc (x.significand : ℚ) * 2 ^ x.scale
        < 2 ^ 53 * 2 ^ x.scale := by gcongr
      _ = 2 ^ 52 * 2 ^ (x.scale + 1) := by
          rw [zpow_add_one₀ two_ne_zero]
          ring
      _ ≤ y.significand * 2 ^ y.scale := by
          gcongr
          · norm_num
          · omega
  · rw [hscale]
    have hlt : (x.significand : ℚ) < y.significand :=
      mod_cast significand_lt_significand h hscale
    gcongr

/-! ## Order -/

theorem toRat_lt_toRat (h : x.rank < y.rank) : x.toRat < y.toRat := by
  have hx := x.absolute_nonneg
  have hy := y.absolute_nonneg
  simp only [rank] at h
  simp only [toRat]
  cases hxs : x.negative <;> cases hys : y.negative <;> simp only [hxs, hys, if_true,
    Bool.false_eq_true, if_false] at h ⊢
  case false.false => exact absolute_lt_absolute (by omega)
  case false.true => omega
  case true.true => exact neg_lt_neg (absolute_lt_absolute (by omega))
  case true.false =>
    -- One of the two is not zero, and the zero has the smaller absolute value.
    obtain hpos | hpos : 0 < x.magnitude ∨ 0 < y.magnitude := by omega
    · have hlt := absolute_lt_absolute (x := zero false) (y := x) hpos
      have hzero := (zero false).absolute_nonneg
      linarith
    · have hlt := absolute_lt_absolute (x := zero false) (y := y) hpos
      have hzero := (zero false).absolute_nonneg
      linarith

theorem magnitude_eq_natAbs_rank (x : Binary64) : x.magnitude = x.rank.natAbs := by
  simp only [rank]
  split <;> omega

/-- Finite doubles of one rank denote one number: they are equal, or they are the two zeros. -/
theorem toRat_eq_toRat (h : x.rank = y.rank) : x.toRat = y.toRat := by
  have hmagnitude : x.magnitude = y.magnitude := by
    rw [magnitude_eq_natAbs_rank, magnitude_eq_natAbs_rank, h]
  have habsolute : x.absolute = y.absolute := by
    have hx := x.fraction.isLt
    have hy := y.fraction.isLt
    simp only [magnitude] at hmagnitude
    have hexponent : x.exponent.val = y.exponent.val := by omega
    have hfraction : x.fraction.val = y.fraction.val := by omega
    simp only [absolute, significand, scale, hexponent, hfraction]
  by_cases hsign : x.negative = y.negative
  · rw [toRat, toRat, hsign, habsolute]
  · have hzero : y.magnitude = 0 := by
      simp only [rank] at h
      cases hxs : x.negative <;> cases hys : y.negative <;> simp_all
    simp [toRat, habsolute, absolute_eq_zero hzero]

theorem value_eq_value (h : x.rank = y.rank) : x.value = y.value := by
  have hmagnitude : x.magnitude = y.magnitude := by
    rw [magnitude_eq_natAbs_rank, magnitude_eq_natAbs_rank, h]
  have hfinite : x.isFinite = y.isFinite := by rw [isFinite, isFinite, hmagnitude]
  simp only [value]
  rw [hfinite, toRat_eq_toRat h]
  by_cases hy : y.isFinite = true
  · simp [hy]
  · -- Both are infinities, and a rank tells the signs of numbers other than zero apart.
    have hpos : 0 < y.magnitude := by
      rw [isFinite_iff, not_lt] at hy
      exact lt_of_lt_of_le (by decide) hy
    have hsign : x.negative = y.negative := by
      simp only [rank] at h
      cases hxs : x.negative <;> cases hys : y.negative <;> simp_all
    rw [hsign]

/-- Nothing has a smaller rank than the negative infinity. -/
theorem negative_eq_false (hx : x.isNaN = false) (hy : y.isFinite = false) (h : x.rank < y.rank) :
    y.negative = false := by
  have hxle := magnitude_le_of_not_isNaN hx
  have hyle : infinite ≤ y.magnitude := by simpa [isFinite] using hy
  simp only [rank] at h
  cases hys : y.negative with
  | false => rfl
  | true =>
      rw [hys] at h
      simp only [if_true] at h
      split at h <;> omega

/-- Nothing has a greater rank than the positive infinity. -/
theorem negative_eq_true (hx : x.isFinite = false) (hy : y.isNaN = false) (h : x.rank < y.rank) :
    x.negative = true := by
  have hyle := magnitude_le_of_not_isNaN hy
  have hxle : infinite ≤ x.magnitude := by simpa [isFinite] using hx
  simp only [rank] at h
  cases hxs : x.negative with
  | true => rfl
  | false =>
      rw [hxs] at h
      simp only [Bool.false_eq_true, if_false] at h
      split at h <;> omega

theorem value_lt_value (hx : x.isNaN = false) (hy : y.isNaN = false) (h : x.rank < y.rank) :
    x.value < y.value := by
  simp only [value]
  cases hxf : x.isFinite <;> cases hyf : y.isFinite
  case true.true =>
    simp only [if_true]
    exact_mod_cast toRat_lt_toRat h
  case true.false =>
    simp only [negative_eq_false hx hyf h, if_true, Bool.false_eq_true, if_false]
    exact WithBot.coe_lt_coe.2 (WithTop.coe_lt_top x.toRat)
  case false.true =>
    simp [negative_eq_true hxf hy h]
  case false.false =>
    simp [negative_eq_true hxf hy h, negative_eq_false hx hyf h]

theorem compare?_eq (hx : x.isNaN = false) (hy : y.isNaN = false) :
    x.compare? y = some (cmp x.value y.value) := by
  have hcompare : x.compare? y = some (cmp x.rank y.rank) := by
    rw [cmp_eq_compare]
    simp [compare?, hx, hy]
  rw [hcompare]
  obtain h | h | h := lt_trichotomy x.rank y.rank
  · rw [h.cmp_eq_lt, (value_lt_value hx hy h).cmp_eq_lt]
  · rw [cmp_eq_eq_iff _ _ |>.2 h, cmp_eq_eq_iff _ _ |>.2 (value_eq_value h)]
  · rw [h.cmp_eq_gt, (value_lt_value hy hx h).cmp_eq_gt]

theorem strictMono_number : StrictMono fun x : ℚ => ((x : WithTop ℚ) : WithBot (WithTop ℚ)) :=
  WithBot.coe_strictMono.comp WithTop.coe_strictMono

/-- Doubles of fractions compare as the fractions. -/
theorem compare?_of_value_eq {q r : ℚ} (hx : x.value = ((q : WithTop ℚ) : WithBot (WithTop ℚ)))
    (hy : y.value = ((r : WithTop ℚ) : WithBot (WithTop ℚ))) : x.compare? y = some (cmp q r) := by
  rw [compare?_eq (not_isNaN_of_isFinite (isFinite_of_value_eq hx))
    (not_isNaN_of_isFinite (isFinite_of_value_eq hy)), hx, hy]
  exact congrArg some (strictMono_number.cmp_map_eq q r)

/-- Whole numbers compare as the numbers that doubles denote. -/
theorem cmp_number (m n : Int) :
    cmp (((m : ℚ) : WithTop ℚ) : WithBot (WithTop ℚ)) (((n : ℚ) : WithTop ℚ)) = cmp m n :=
  (strictMono_number.comp Int.cast_strictMono).cmp_map_eq m n

end EntityQuery.Binary64
