import EntityQuery.Proofs.Number.Nearest
import EntityQuery.Proofs.Number.Whole
/-!
# Rounding keeps the order

The double of a fraction does not fall when the fraction grows. Within one spacing this is true of
the nearest whole number of spacings, and from one spacing to a wider one because the smaller
fraction has at most `2 ^ 53` of its spacings and the greater one at least `2 ^ 52`. A double is
rounded to itself, so a number on one side of a double is not rounded beyond it.
-/

namespace EntityQuery

/-! ## Rounding to whole numbers -/

theorem isNearest_roundHalfEven (num : Nat) {den : Nat} (hden : den ≠ 0) :
    IsNearest (num / den) (roundHalfEven num den) := by
  have hpos : (0 : ℚ) < den := by positivity
  have hsplit := Nat.div_add_mod' num den
  have hrest := Nat.mod_lt num (Nat.pos_of_ne_zero hden)
  have hhalves (n : Nat) (hlow : 2 * (n * den) ≤ 2 * num + den)
      (hhigh : 2 * num ≤ 2 * (n * den) + den)
      (hstrict : n % 2 = 1 → 2 * (n * den) < 2 * num + den ∧ 2 * num < 2 * (n * den) + den) :
      IsNearest (num / den) n := by
    have hlow' : (2 * (n * den) : ℚ) ≤ 2 * num + den := mod_cast hlow
    have hhigh' : (2 * num : ℚ) ≤ 2 * (n * den) + den := mod_cast hhigh
    refine ⟨?_, ?_, ?_⟩
    · rw [le_div_iff₀ hpos]
      linarith
    · rw [div_le_iff₀ hpos]
      linarith
    · intro hodd
      have hl : (2 * (n * den) : ℚ) < 2 * num + den := mod_cast (hstrict hodd).1
      have hr : (2 * num : ℚ) < 2 * (n * den) + den := mod_cast (hstrict hodd).2
      rw [lt_div_iff₀ hpos, div_lt_iff₀ hpos]
      exact ⟨by linarith, by linarith⟩
  simp only [roundHalfEven]
  generalize num / den = quotient at hsplit ⊢
  generalize num % den = rest at hsplit hrest ⊢
  have hnext : (quotient + 1) * den = quotient * den + den := Nat.succ_mul quotient den
  split_ifs
  · exact hhalves quotient (by omega) (by omega) (by omega)
  · exact hhalves (quotient + 1) (by omega) (by omega) (by omega)
  · exact hhalves quotient (by omega) (by omega) (by omega)
  · exact hhalves (quotient + 1) (by omega) (by omega) (by omega)

namespace IsNearest

variable {q r : ℚ} {m n : Nat}

theorem natCast (n : Nat) : IsNearest n n :=
  ⟨by linarith, by linarith, fun _ => ⟨by linarith, by linarith⟩⟩

/-- A greater fraction has no smaller nearest whole number. Halfway between two whole numbers one
of them is odd, and an odd one is nearest to nothing that is halfway. -/
theorem le_of_le (hm : IsNearest q m) (hn : IsNearest r n) (h : q ≤ r) : m ≤ n := by
  by_contra hlt
  have hnext : (n : ℚ) + 1 ≤ m := mod_cast not_le.1 hlt
  have hlow := hm.low
  have hhigh := hn.high
  have hodd : m % 2 = 1 ∨ n % 2 = 1 := by
    have hle : (m : ℚ) ≤ n + 1 := by linarith
    have hle' : m ≤ n + 1 := mod_cast hle
    omega
  obtain hodd | hodd := hodd
  · have hstrict := (hm.strict hodd).1
    linarith
  · have hstrict := (hn.strict hodd).2
    linarith

end IsNearest

theorem floorLog2_mono {num den num' den' : Nat} (hnum : num ≠ 0) (hden : den ≠ 0)
    (hnum' : num' ≠ 0) (hden' : den' ≠ 0) (h : (num / den : ℚ) ≤ num' / den') :
    floorLog2 num den ≤ floorLog2 num' den' := by
  have hlow := (floorLog2_le hnum hden).1
  have hhigh := (floorLog2_le hnum' hden').2
  have hlt : (2 : ℚ) ^ floorLog2 num den < 2 ^ (floorLog2 num' den' + 1) :=
    (hlow.trans h).trans_lt hhigh
  exact Int.le_of_lt_add_one ((zpow_lt_zpow_iff_right₀ one_lt_two).1 hlt)

namespace Binary64

/-! ## Magnitudes -/

theorem magnitude_ofMagnitude (negative : Bool) (n : Nat) :
    (ofMagnitude negative n).magnitude = min n infinite := by
  simp only [ofMagnitude]
  split
  · next hlt =>
      simp only [magnitude]
      omega
  · next hnot =>
      simp only [magnitude, infinite] at hnot ⊢
      omega

theorem negative_ofMagnitude (negative : Bool) (n : Nat) :
    (ofMagnitude negative n).negative = negative := by
  simp only [ofMagnitude]
  split <;> rfl

theorem negative_ofRatio (negative : Bool) (num den : Nat) :
    (ofRatio negative num den).negative = negative := by
  simp only [ofRatio]
  split <;> exact negative_ofMagnitude negative _

theorem magnitude_ofRatio_zero (negative : Bool) (den : Nat) :
    (ofRatio negative 0 den).magnitude = 0 :=
  (magnitude_ofMagnitude negative 0).trans (Nat.zero_min infinite)

/-- The double of a fraction, by its spacing and the number of spacings. The spacing is the least
one, or there are at least `2 ^ 52` of it. -/
structure Rounds (num den : Nat) (spacing : Int) (units : Nat) : Prop where
  nearest : IsNearest (num / den / 2 ^ spacing) units
  magnitude_eq : ∀ negative, (ofRatio negative num den).magnitude =
    min ((spacing + 1074).toNat * 0x10000000000000 + units) infinite
  spacing_eq : spacing = max (floorLog2 num den - 52) (-1074)

section Fractions

variable {num den num' den' : Nat} {spacing spacing' : Int} {units units' : Nat}

theorem exists_rounds (hnum : num ≠ 0) (hden : den ≠ 0) :
    ∃ spacing units, Rounds num den spacing units := by
  generalize hspacing : max (floorLog2 num den - 52) (-1074) = spacing
  have hden' : den * Nat.pow 2 spacing.toNat ≠ 0 := by
    rw [Nat.pow_eq]
    positivity
  have hratio : ((num * Nat.pow 2 (-spacing).toNat : Nat) : ℚ) /
      (den * Nat.pow 2 spacing.toNat : Nat) = num / den / 2 ^ spacing := by
    rw [zpow_eq_div two_ne_zero, Nat.pow_eq, Nat.pow_eq]
    push_cast
    field_simp
  refine ⟨spacing, _, hratio ▸ isNearest_roundHalfEven _ hden', ?_, hspacing.symm⟩
  intro negative
  simp only [ofRatio, if_neg hnum, hspacing, magnitude_ofMagnitude]

namespace Rounds

theorem units_le (h : Rounds num den spacing units) (hnum : num ≠ 0) (hden : den ≠ 0) :
    units ≤ 2 ^ 53 := by
  have hpos : (0 : ℚ) < 2 ^ spacing := zpow_pos two_pos _
  have hlt := (floorLog2_le hnum hden).2
  have hspacing := h.spacing_eq
  have hle : (num / den / 2 ^ spacing : ℚ) ≤ (2 ^ 53 : Nat) := by
    rw [div_le_iff₀ hpos]
    calc (num / den : ℚ) ≤ 2 ^ (floorLog2 num den + 1) := hlt.le
      _ ≤ 2 ^ (53 + spacing) := zpow_le_zpow_right₀ one_le_two (by omega)
      _ = (2 ^ 53 : Nat) * 2 ^ spacing := by
          rw [zpow_add₀ two_ne_zero]
          norm_num
  exact h.nearest.le_of_le (.natCast _) hle

theorem le_units (h : Rounds num den spacing units) (hnum : num ≠ 0) (hden : den ≠ 0)
    (hspacing : -1074 < spacing) : 2 ^ 52 ≤ units := by
  have hpos : (0 : ℚ) < 2 ^ spacing := zpow_pos two_pos _
  have hlow := (floorLog2_le hnum hden).1
  have heq := h.spacing_eq
  have hle : ((2 ^ 52 : Nat) : ℚ) ≤ num / den / 2 ^ spacing := by
    rw [le_div_iff₀ hpos]
    calc ((2 ^ 52 : Nat) : ℚ) * 2 ^ spacing = 2 ^ (52 + spacing) := by
          rw [zpow_add₀ two_ne_zero]
          norm_num
      _ = 2 ^ floorLog2 num den := by
          congr 1
          omega
      _ ≤ num / den := hlow
  exact (IsNearest.natCast _).le_of_le h.nearest hle

/-- A greater fraction has no smaller double. -/
theorem le_of_le (h : Rounds num den spacing units) (h' : Rounds num' den' spacing' units')
    (hnum : num ≠ 0) (hden : den ≠ 0) (hnum' : num' ≠ 0) (hden' : den' ≠ 0)
    (hle : (num / den : ℚ) ≤ num' / den') :
    (spacing + 1074).toNat * 0x10000000000000 + units ≤
      (spacing' + 1074).toNat * 0x10000000000000 + units' := by
  have hspacing := h.spacing_eq
  have hspacing' := h'.spacing_eq
  have hlog := floorLog2_mono hnum hden hnum' hden' hle
  obtain heq | hlt : spacing = spacing' ∨ spacing < spacing' := by omega
  · subst heq
    have hunits : units ≤ units' := by
      refine h.nearest.le_of_le h'.nearest ?_
      gcongr
    omega
  · -- The wider spacing begins where the number of the narrower ones ends.
    have hmost := h.units_le hnum hden
    have hleast := h'.le_units hnum' hden' (by omega)
    omega

end Rounds

theorem magnitude_ofRatio_mono (negative negative' : Bool) (hden : den ≠ 0) (hden' : den' ≠ 0)
    (h : (num / den : ℚ) ≤ num' / den') :
    (ofRatio negative num den).magnitude ≤ (ofRatio negative' num' den').magnitude := by
  obtain rfl | hnum := eq_or_ne num 0
  · rw [magnitude_ofRatio_zero]
    exact Nat.zero_le _
  have hpos : (0 : ℚ) < num / den := by positivity
  have hnum' : num' ≠ 0 := by
    rintro rfl
    rw [Nat.cast_zero, zero_div] at h
    exact absurd h (not_le.2 hpos)
  obtain ⟨spacing, units, hrounds⟩ := exists_rounds hnum hden
  obtain ⟨spacing', units', hrounds'⟩ := exists_rounds hnum' hden'
  rw [hrounds.magnitude_eq, hrounds'.magnitude_eq]
  exact min_le_min_right infinite (hrounds.le_of_le hrounds' hnum hden hnum' hden' h)

end Fractions

theorem contains_absolute (x : Binary64) : (Shortest.window x).Contains x.absolute := by
  have hquarter : (0 : ℚ) < 2 ^ (x.scale - 2) := zpow_pos two_pos _
  have hfour : (2 : ℚ) ^ x.scale = 4 * 2 ^ (x.scale - 2) := by
    rw [zpow_sub₀ two_ne_zero]
    norm_num
    ring
  have hbelow : (0 : ℚ) < (Shortest.window x).below := by
    simp only [Shortest.window]
    split <;> norm_num
  have habsolute : x.absolute = (4 * x.significand) * 2 ^ (x.scale - 2) := by
    rw [absolute, hfour]
    ring
  have hlow : (Shortest.window x).low < x.absolute := by
    rw [habsolute, Shortest.Window.low]
    refine mul_lt_mul_of_pos_right ?_ hquarter
    simp only [Shortest.window] at hbelow ⊢
    push_cast at hbelow ⊢
    linarith
  have hhigh : x.absolute < (Shortest.window x).high := by
    rw [habsolute, Shortest.Window.high]
    refine mul_lt_mul_of_pos_right ?_ hquarter
    simp only [Shortest.window]
    push_cast
    linarith
  exact ⟨hlow.le, hhigh.le, fun _ => ⟨hlow, hhigh⟩⟩

/-- A double is rounded to itself. -/
theorem magnitude_ofRatio_of_absolute {x : Binary64} (hfinite : x.isFinite = true)
    (negative : Bool) {num den : Nat} (hden : den ≠ 0) (h : (num / den : ℚ) = x.absolute) :
    (ofRatio negative num den).magnitude = x.magnitude := by
  obtain hzero | hpos := x.magnitude.eq_zero_or_pos
  · have hnum : num = 0 := by
      rw [absolute_eq_zero hzero, div_eq_zero_iff] at h
      exact_mod_cast h.resolve_right (mod_cast hden)
    rw [hnum, magnitude_ofRatio_zero, hzero]
  · have hnum : num ≠ 0 := by
      rintro rfl
      have hvalue := absolute_lt_absolute (x := zero false) (y := x) hpos
      rw [← h, Nat.cast_zero, zero_div] at hvalue
      exact absurd hvalue (not_lt.2 (absolute_nonneg _))
    have hcontains := x.contains_absolute
    rw [← h] at hcontains
    rw [ofRatio_of_contains negative hnum hden hcontains, magnitude_ofMagnitude]
    exact min_eq_left (isFinite_iff.1 hfinite).le

/-! ## Numbers with a sign -/

/-- The double nearest to a fraction. -/
def ofRat (q : ℚ) : Binary64 :=
  ofRatio (q < 0) q.num.natAbs q.den

theorem ofInt_eq_ofRat (n : Int) : ofInt n = ofRat n := by
  have hsign : decide ((n : ℚ) < 0) = decide (n < 0) := decide_eq_decide.2 Int.cast_lt_zero
  rw [ofInt, ofRat, hsign, Rat.num_intCast, Rat.den_intCast]

theorem natAbs_num_div_den (q : ℚ) : (q.num.natAbs : ℚ) / q.den = |q| := by
  rw [Nat.cast_natAbs, Int.cast_abs]
  conv_rhs => rw [← Rat.num_div_den q, abs_div, Nat.abs_cast]

theorem magnitude_ofRat_mono {q r : ℚ} (h : |q| ≤ |r|) :
    (ofRat q).magnitude ≤ (ofRat r).magnitude := by
  rw [← natAbs_num_div_den, ← natAbs_num_div_den] at h
  exact magnitude_ofRatio_mono _ _ q.den_nz r.den_nz h

theorem rank_ofRat (q : ℚ) :
    (ofRat q).rank = if q < 0 then -((ofRat q).magnitude : Int) else (ofRat q).magnitude := by
  have hsign : (ofRat q).negative = decide (q < 0) := negative_ofRatio _ _ _
  rw [rank, hsign]
  by_cases h : q < 0 <;> simp [h]

/-- A greater number has no smaller double. -/
theorem rank_ofRat_mono {q r : ℚ} (h : q ≤ r) : (ofRat q).rank ≤ (ofRat r).rank := by
  rw [rank_ofRat, rank_ofRat]
  by_cases hq : q < 0 <;> by_cases hr : r < 0 <;> simp only [hq, hr, if_true, if_false]
  · have hmagnitude := magnitude_ofRat_mono (abs_le_abs_of_nonpos hr.le h)
    omega
  · omega
  · exact absurd (h.trans_lt hr) hq
  · have hmagnitude := magnitude_ofRat_mono (abs_le_abs_of_nonneg (not_lt.1 hq) h)
    omega

/-- The number that a double denotes is rounded to a double of its rank. -/
theorem rank_ofRat_toRat {x : Binary64} (hfinite : x.isFinite = true) :
    (ofRat x.toRat).rank = x.rank := by
  have habs : |x.toRat| = x.absolute := by
    rw [toRat]
    split
    · rw [abs_neg, abs_of_nonneg x.absolute_nonneg]
    · exact abs_of_nonneg x.absolute_nonneg
  have hmagnitude : (ofRat x.toRat).magnitude = x.magnitude :=
    magnitude_ofRatio_of_absolute hfinite _ x.toRat.den_nz ((natAbs_num_div_den _).trans habs)
  obtain hzero | hpos := x.magnitude.eq_zero_or_pos
  · rw [rank_ofRat, rank, hmagnitude, hzero]
    simp
  · have hnonneg := absolute_nonneg (zero false)
    have habsolute : 0 < x.absolute := hnonneg.trans_lt (absolute_lt_absolute hpos)
    rw [rank_ofRat, rank, hmagnitude, toRat]
    cases x.negative with
    | true => simp [habsolute]
    | false => simp [x.absolute_nonneg]

end Binary64

end EntityQuery
