import EntityQuery.Number.Rounding
import EntityQuery.Proofs.Number.Value
/-!
# Whole numbers as doubles

A whole number of at most 53 bits is a double, so rounding it to the nearest double does
not change it. Larger ones may change, but none becomes a not-a-number.
-/

namespace EntityQuery

theorem roundHalfEven_one (num : Nat) : roundHalfEven num 1 = num := by
  simp [roundHalfEven, Nat.mod_one]

/-- The logarithm of a whole number needs no correction. -/
theorem floorLog2_one {num : Nat} (h : num ≠ 0) : floorLog2 num 1 = num.log2 := by
  have hpow : powLeRatio num.log2 num 1 = true := by
    simpa [powLeRatio] using Nat.log2_self_le h
  have hlog : (1 : Nat).log2 = 0 := rfl
  simp only [floorLog2, hlog, Nat.cast_zero, sub_zero]
  rw [if_pos hpow]

namespace Binary64

/-- The double of a sign and a magnitude below infinity, by its fields. -/
theorem fields_ofMagnitude (negative : Bool) (exponent fraction : Nat) (he : exponent < 2047)
    (hf : fraction < 0x10000000000000) :
    let x := ofMagnitude negative (exponent * 0x10000000000000 + fraction)
    x.negative = negative ∧ x.exponent.val = exponent ∧ x.fraction.val = fraction := by
  have hlt : exponent * 0x10000000000000 + fraction < infinite := by
    simp only [infinite]
    omega
  simp only [ofMagnitude, dif_pos hlt, true_and]
  omega

theorem scale_of_exponent {x : Binary64} {k : Nat} (h : x.exponent.val = k + 1023) :
    x.scale = (k : Int) - 52 := by
  simp only [scale]
  omega

/-- The magnitude of a whole number of at most 53 bits: the number itself, shifted until it
has 53 bits, is the significand. -/
theorem ofRatio_one (negative : Bool) {num : Nat} (hpos : num ≠ 0) (h : num < 2 ^ 53) :
    ofRatio negative num 1 = ofMagnitude negative
      ((num.log2 + 1022) * 0x10000000000000 + num * 2 ^ (52 - num.log2)) := by
  have hlog : num.log2 < 53 := (Nat.log2_lt hpos).2 h
  have hspacing : max (floorLog2 num 1 - 52) (-1074) = (num.log2 : Int) - 52 := by
    rw [floorLog2_one hpos]
    omega
  have hdown : ((num.log2 : Int) - 52).toNat = 0 := by omega
  have hup : (-((num.log2 : Int) - 52)).toNat = 52 - num.log2 := by omega
  have hbias : ((num.log2 : Int) - 52 + 1074).toNat = num.log2 + 1022 := by omega
  simp only [ofRatio, if_neg hpos, hspacing, hdown, hup, hbias, Nat.pow_eq, Nat.pow_zero, mul_one,
    roundHalfEven_one]

/-- A whole number of at most 53 bits is rounded to itself. -/
theorem ofRatio_one_exact (negative : Bool) {num : Nat} (h : num < 2 ^ 53) :
    (ofRatio negative num 1).negative = negative ∧ (ofRatio negative num 1).isFinite = true ∧
      (ofRatio negative num 1).absolute = num := by
  by_cases hpos : num = 0
  · subst hpos
    have hzero : ofRatio negative 0 1 = ofMagnitude negative (0 * 0x10000000000000 + 0) := rfl
    obtain ⟨hsign, hexponent, hfraction⟩ := fields_ofMagnitude negative 0 0
      (by omega) (by omega)
    have hmagnitude : (ofRatio negative 0 1).magnitude = 0 := by
      rw [hzero, magnitude, hexponent, hfraction]
    refine ⟨hzero ▸ hsign, ?_, ?_⟩
    · rw [isFinite_iff, hmagnitude, infinite]
      omega
    · rw [absolute_eq_zero hmagnitude, Nat.cast_zero]
  have hlog : num.log2 < 53 := (Nat.log2_lt hpos).2 h
  have hshifted : (num.log2 : Int) - 52 = -((52 - num.log2 : Nat) : Int) := by omega
  have hshift : 2 ^ num.log2 * 2 ^ (52 - num.log2) = 2 ^ 52 := by
    rw [← Nat.pow_add]
    congr 1
    omega
  have hlow : 2 ^ 52 ≤ num * 2 ^ (52 - num.log2) := by
    rw [← hshift]
    exact Nat.mul_le_mul_right _ (Nat.log2_self_le hpos)
  have hhigh : num * 2 ^ (52 - num.log2) < 2 ^ 53 := by
    have hbound : num < 2 * 2 ^ num.log2 := by
      rw [← Nat.pow_succ']
      exact Nat.lt_log2_self
    have hmul := Nat.mul_lt_mul_of_pos_right hbound (Nat.two_pow_pos (52 - num.log2))
    rw [Nat.mul_assoc, hshift] at hmul
    omega
  obtain ⟨hsign, hexponent, hfraction⟩ := fields_ofMagnitude negative (num.log2 + 1023)
    (num * 2 ^ (52 - num.log2) - 2 ^ 52) (by omega) (by omega)
  have hmagnitude : (num.log2 + 1023) * 0x10000000000000 +
      (num * 2 ^ (52 - num.log2) - 2 ^ 52) =
        (num.log2 + 1022) * 0x10000000000000 + num * 2 ^ (52 - num.log2) := by omega
  rw [hmagnitude, ← ofRatio_one negative hpos h] at hsign hexponent hfraction
  refine ⟨hsign, ?_, ?_⟩
  · rw [isFinite_iff, magnitude, hexponent, hfraction, infinite]
    omega
  · have hsignificand : (ofRatio negative num 1).significand = num * 2 ^ (52 - num.log2) := by
      rw [significand, hexponent, hfraction, if_neg (by omega)]
      exact Nat.add_sub_of_le hlow
    have hscale : (ofRatio negative num 1).scale = -((52 - num.log2 : Nat) : Int) := by
      rw [scale_of_exponent hexponent, hshifted]
    rw [absolute, hsignificand, hscale, zpow_neg, zpow_natCast]
    push_cast
    exact mul_inv_cancel_right₀ (by positivity) _

/-- The double of a whole number of at most 53 bits denotes the number. -/
theorem value_ofInt {n : Int} (h : n.natAbs < 2 ^ 53) :
    (ofInt n).value = ((n : ℚ) : WithTop ℚ) := by
  obtain ⟨hsign, hfinite, habsolute⟩ := ofRatio_one_exact (n < 0) h
  have hvalue : (ofInt n).toRat = n := by
    rw [ofInt, toRat, hsign, habsolute]
    by_cases hneg : n < 0
    · have habs : ((n.natAbs : Int) : ℚ) = -n := by
        rw [Int.ofNat_natAbs_of_nonpos hneg.le, Int.cast_neg]
      rw [decide_eq_true hneg, if_pos rfl, ← Int.cast_natCast, habs, neg_neg]
    · have habs : ((n.natAbs : Int) : ℚ) = n := by
        rw [Int.natAbs_of_nonneg (not_lt.1 hneg)]
      rw [decide_eq_false hneg, if_neg (by simp), ← Int.cast_natCast, habs]
  have hfinite' : (ofInt n).isFinite = true := hfinite
  rw [value, if_pos hfinite', hvalue]

/-- Rounding never gives a not-a-number: what is too large becomes infinite. -/
theorem isNaN_ofMagnitude (negative : Bool) (n : Nat) : (ofMagnitude negative n).isNaN = false := by
  have hle : (ofMagnitude negative n).magnitude ≤ infinite := by
    simp only [ofMagnitude]
    split
    · next hlt =>
        simp only [magnitude]
        omega
    · simp [magnitude, infinite]
  simpa [isNaN] using hle

theorem isNaN_ofInt (n : Int) : (ofInt n).isNaN = false := by
  by_cases hzero : n.natAbs = 0
  · rw [ofInt, ofRatio, if_pos hzero]
    exact isNaN_ofMagnitude _ 0
  · rw [ofInt, ofRatio, if_neg hzero]
    exact isNaN_ofMagnitude _ _

end Binary64

end EntityQuery
