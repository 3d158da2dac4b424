import Mathlib.Tactic.FieldSimp
import EntityQuery.Number.Rounding
import EntityQuery.Number.Shortest
import EntityQuery.Proofs.Number.Value
/-!
# The nearest double

A fraction is rounded by counting how often the spacing of its doubles goes into it. Every
positive double has an interval around it, from the middle between it and the double below to
the middle between it and the double above, and all fractions in the interval are rounded to it.
The ends belong to it if its significand is even. Below a power of two the spacing is half as
wide, which is where the interval has fewer fractions below the double than above it.
-/

namespace EntityQuery

/-- A power with a whole exponent, as a fraction of powers. -/
theorem zpow_eq_div {base : ℚ} (h : base ≠ 0) (k : Int) :
    base ^ k = base ^ k.toNat / base ^ (-k).toNat := by
  have hsplit : k = (k.toNat : Int) - ((-k).toNat : Int) := by omega
  conv_lhs => rw [hsplit]
  rw [zpow_sub₀ h, zpow_natCast, zpow_natCast]

theorem two_zpow_sub_one (k : Int) : (2 : ℚ) ^ (k - 1) = 2 * 2 ^ (k - 2) := by
  rw [← zpow_one_add₀ two_ne_zero]
  congr 1
  omega

/-! ## Logarithms -/

section Logarithms

variable {num den : Nat}

theorem powLeRatio_iff (k : Int) (hden : den ≠ 0) :
    powLeRatio k num den = true ↔ (2 : ℚ) ^ k ≤ num / den := by
  have hpos : (0 : ℚ) < den := by positivity
  rw [powLeRatio, decide_eq_true_eq, zpow_eq_div two_ne_zero, div_le_div_iff₀ (by positivity) hpos,
    Nat.pow_eq, Nat.pow_eq, mul_comm den]
  exact_mod_cast Iff.rfl

theorem two_zpow_log2_le {n : Nat} (h : n ≠ 0) : (2 : ℚ) ^ (n.log2 : Int) ≤ n := by
  rw [zpow_natCast]
  exact_mod_cast Nat.log2_self_le h

theorem lt_two_zpow_log2 (n : Nat) : (n : ℚ) < 2 ^ ((n.log2 : Int) + 1) := by
  have hcast : ((n.log2 : Int) + 1) = ((n.log2 + 1 : Nat) : Int) := by push_cast; rfl
  rw [hcast, zpow_natCast]
  exact_mod_cast Nat.lt_log2_self (n := n)

/-- The logarithm is rounded down. -/
theorem floorLog2_le (hnum : num ≠ 0) (hden : den ≠ 0) :
    (2 : ℚ) ^ floorLog2 num den ≤ num / den ∧ (num / den : ℚ) < 2 ^ (floorLog2 num den + 1) := by
  have hpos : (0 : ℚ) < den := by positivity
  have hlow : (2 : ℚ) ^ ((num.log2 : Int) - den.log2 - 1) ≤ num / den := by
    rw [le_div_iff₀ hpos]
    calc (2 : ℚ) ^ ((num.log2 : Int) - den.log2 - 1) * den
        ≤ 2 ^ ((num.log2 : Int) - den.log2 - 1) * 2 ^ ((den.log2 : Int) + 1) := by
          gcongr
          exact (lt_two_zpow_log2 den).le
      _ = 2 ^ (num.log2 : Int) := by
          rw [← zpow_add₀ two_ne_zero]
          congr 1
          omega
      _ ≤ num := two_zpow_log2_le hnum
  have hhigh : (num / den : ℚ) < 2 ^ ((num.log2 : Int) - den.log2 + 1) := by
    rw [div_lt_iff₀ hpos]
    calc (num : ℚ) < 2 ^ ((num.log2 : Int) + 1) := lt_two_zpow_log2 num
      _ = 2 ^ ((num.log2 : Int) - den.log2 + 1) * 2 ^ (den.log2 : Int) := by
          rw [← zpow_add₀ two_ne_zero]
          congr 1
          omega
      _ ≤ 2 ^ ((num.log2 : Int) - den.log2 + 1) * den := by
          gcongr
          exact two_zpow_log2_le hden
  simp only [floorLog2]
  split
  · next h => exact ⟨(powLeRatio_iff _ hden).1 h, hhigh⟩
  · next h =>
      have hlt := not_le.1 (mt (powLeRatio_iff _ hden).2 h)
      rw [sub_add_cancel]
      exact ⟨hlow, hlt⟩

end Logarithms

/-! ## Rounding to whole numbers -/

/-- The whole number is the nearest one, a half going to the even neighbour. -/
structure IsNearest (q : ℚ) (n : Nat) : Prop where
  low : (n : ℚ) - 1 / 2 ≤ q
  high : q ≤ n + 1 / 2
  strict : n % 2 = 1 → (n : ℚ) - 1 / 2 < q ∧ q < n + 1 / 2

/-- The nearest number of spacings is told by halves of the spacing. -/
theorem IsNearest.of_halves {q half : ℚ} {n : Nat} (hhalf : 0 < half)
    (hlow : (2 * n - 1) * half ≤ q) (hhigh : q ≤ (2 * n + 1) * half)
    (hstrict : n % 2 = 1 → (2 * n - 1) * half < q ∧ q < (2 * n + 1) * half) :
    IsNearest (q / (2 * half)) n := by
  have hpos : 0 < 2 * half := by positivity
  refine ⟨?_, ?_, ?_⟩
  · rw [le_div_iff₀ hpos]
    linarith
  · rw [div_le_iff₀ hpos]
    linarith
  · intro hodd
    obtain ⟨hl, hr⟩ := hstrict hodd
    rw [lt_div_iff₀ hpos, div_lt_iff₀ hpos]
    exact ⟨by linarith, by linarith⟩

theorem roundHalfEven_eq {num den n : Nat} (hden : den ≠ 0) (h : IsNearest (num / den) n) :
    roundHalfEven num den = n := by
  have hpos : (0 : ℚ) < den := by positivity
  have hlow : 2 * (n * den) ≤ 2 * num + den := by
    have hq := (le_div_iff₀ hpos).1 h.low
    exact_mod_cast (by linarith : (2 * (n * den) : ℚ) ≤ 2 * num + den)
  have hhigh : 2 * num ≤ 2 * (n * den) + den := by
    have hq := (div_le_iff₀ hpos).1 h.high
    exact_mod_cast (by linarith : (2 * num : ℚ) ≤ 2 * (n * den) + den)
  have hstrict (hodd : n % 2 = 1) :
      2 * (n * den) < 2 * num + den ∧ 2 * num < 2 * (n * den) + den := by
    have hl := (lt_div_iff₀ hpos).1 (h.strict hodd).1
    have hr := (div_lt_iff₀ hpos).1 (h.strict hodd).2
    exact ⟨mod_cast (by linarith : (2 * (n * den) : ℚ) < 2 * num + den),
      mod_cast (by linarith : (2 * num : ℚ) < 2 * (n * den) + den)⟩
  have hsplit := Nat.div_add_mod' num den
  have hrest := Nat.mod_lt num (Nat.pos_of_ne_zero hden)
  simp only [roundHalfEven]
  generalize num / den = quotient at hsplit ⊢
  generalize num % den = rest at hsplit hrest ⊢
  subst hsplit
  -- The nearest number is the quotient or the one above it.
  have hle : quotient ≤ n := by nlinarith
  have hge : n ≤ quotient + 1 := by nlinarith
  obtain rfl | rfl : n = quotient ∨ n = quotient + 1 := by omega
  · split_ifs <;> first | rfl | omega
  · rw [Nat.add_mul] at *
    split_ifs <;> first | rfl | omega

/-! ## Rounding to doubles -/

namespace Binary64

theorem neg_le_scale (x : Binary64) : -1074 ≤ x.scale := by
  simp only [scale]
  omega

/-- A magnitude counts the doubles below it: those of the scales below, and the significand. -/
theorem magnitude_eq (x : Binary64) :
    x.magnitude = (x.scale + 1074).toNat * 0x10000000000000 + x.significand := by
  simp only [magnitude, scale, significand]
  split <;> omega

theorem ofMagnitude_magnitude {x : Binary64} (h : x.isFinite = true) :
    ofMagnitude x.negative x.magnitude = x := by
  have hexponent := x.exponent.isLt
  have hfraction := x.fraction.isLt
  obtain ⟨negative, exponent, fraction⟩ := x
  rw [ofMagnitude, dif_pos (isFinite_iff.1 h)]
  simp only [magnitude] at *
  congr 1
  · apply Fin.ext
    simp only
    omega
  · apply Fin.ext
    simp only
    omega

/-- A fraction is rounded in units of the spacing, which is that of 53 bits or the least one. -/
theorem ofRatio_eq (negative : Bool) {num den : Nat} (hnum : num ≠ 0) (hden : den ≠ 0)
    {spacing : Int} {n : Nat} (hspacing : -1074 ≤ spacing)
    (hlow : (2 : ℚ) ^ (spacing + 52) ≤ num / den ∨ spacing = -1074)
    (hhigh : (num / den : ℚ) < 2 ^ (spacing + 53))
    (hnearest : IsNearest (num / den / 2 ^ spacing) n) :
    ofRatio negative num den =
      ofMagnitude negative ((spacing + 1074).toNat * 0x10000000000000 + n) := by
  obtain ⟨hfloor, hceil⟩ := floorLog2_le hnum hden
  have hone : (1 : ℚ) < 2 := one_lt_two
  have hle : floorLog2 num den < spacing + 53 :=
    (zpow_lt_zpow_iff_right₀ hone).1 (hfloor.trans_lt hhigh)
  have hmax : max (floorLog2 num den - 52) (-1074) = spacing := by
    obtain hlow | hleast := hlow
    · have hge : spacing + 52 < floorLog2 num den + 1 :=
        (zpow_lt_zpow_iff_right₀ hone).1 (hlow.trans_lt hceil)
      omega
    · omega
  have hunits : ((num * Nat.pow 2 (-spacing).toNat : Nat) : ℚ) /
      (den * Nat.pow 2 spacing.toNat : Nat) = num / den / 2 ^ spacing := by
    rw [zpow_eq_div two_ne_zero, Nat.pow_eq, Nat.pow_eq]
    push_cast
    field_simp
  have hne : den * Nat.pow 2 spacing.toNat ≠ 0 := by
    rw [Nat.pow_eq]
    positivity
  simp only [ofRatio, if_neg hnum, hmax]
  rw [roundHalfEven_eq hne (hunits ▸ hnearest)]

end Binary64

/-! ## Intervals -/

namespace Shortest.Window

variable (w : Window)

/-- The lower end of the interval. -/
def low : ℚ :=
  (w.value - w.below) * 2 ^ w.scale

/-- The upper end of the interval. -/
def high : ℚ :=
  (w.value + w.above) * 2 ^ w.scale

/-- Whether a fraction lies in the interval. -/
structure Contains (q : ℚ) : Prop where
  low_le : w.low ≤ q
  le_high : q ≤ w.high
  inside : w.closed = false → w.low < q ∧ q < w.high

end Shortest.Window

namespace Binary64

open Shortest

/-- The interval reaches half of the spacing to both sides. -/
theorem bounds_of_contains {x : Binary64} {q : ℚ} (h : (window x).Contains q) :
    (2 * x.significand - 1) * 2 ^ (x.scale - 1) ≤ q ∧
      q ≤ (2 * x.significand + 1) * 2 ^ (x.scale - 1) ∧
      (x.significand % 2 = 1 → (2 * x.significand - 1) * 2 ^ (x.scale - 1) < q ∧
        q < (2 * x.significand + 1) * 2 ^ (x.scale - 1)) := by
  have hhalf := two_zpow_sub_one x.scale
  have hunit : (0 : ℚ) < 2 ^ (x.scale - 2) := zpow_pos two_pos _
  have hlow : (2 * x.significand - 1) * 2 ^ (x.scale - 1) ≤ (window x).low := by
    simp only [Window.low, window, hhalf]
    split <;> push_cast <;> nlinarith
  have hhigh : (window x).high = (2 * x.significand + 1) * 2 ^ (x.scale - 1) := by
    simp only [Window.high, window, hhalf]
    push_cast
    ring
  rw [← hhigh]
  refine ⟨hlow.trans h.low_le, h.le_high, ?_⟩
  intro hodd
  obtain ⟨hl, hr⟩ := h.inside (by simp [window, hodd])
  exact ⟨hlow.trans_lt hl, hr⟩

theorem significand_pos {x : Binary64} (h : 0 < x.magnitude) : 0 < x.significand := by
  simp only [magnitude] at h
  simp only [significand]
  split <;> omega

/-- The intervals of all finite doubles lie between two powers of two. -/
theorem range_of_contains {x : Binary64} {q : ℚ} (hfinite : x.isFinite = true)
    (hpos : 0 < x.magnitude) (h : (window x).Contains q) :
    2 ^ (-1075 : Int) ≤ q ∧ q ≤ 2 ^ (1024 : Int) := by
  obtain ⟨hlow, hhigh, -⟩ := bounds_of_contains h
  have hone : (1 : ℚ) ≤ x.significand := mod_cast significand_pos hpos
  have hsignificand : (x.significand : ℚ) + 1 ≤ 2 ^ 53 := mod_cast x.significand_lt
  have hleast := x.neg_le_scale
  have hgreatest : x.scale ≤ 971 := by
    have hlt := isFinite_iff.1 hfinite
    simp only [magnitude, infinite] at hlt
    simp only [scale]
    omega
  refine ⟨?_, ?_⟩
  · calc (2 : ℚ) ^ (-1075 : Int) ≤ 2 ^ (x.scale - 1) := by
          gcongr
          · norm_num
          · omega
      _ ≤ (2 * x.significand - 1) * 2 ^ (x.scale - 1) :=
          le_mul_of_one_le_left (by positivity) (by linarith)
      _ ≤ q := hlow
  · have hpower : (2 : ℚ) ^ (54 : Int) = 2 * 2 ^ 53 := by norm_num
    calc q ≤ (2 * x.significand + 1) * 2 ^ (x.scale - 1) := hhigh
      _ ≤ 2 ^ (54 : Int) * 2 ^ (970 : Int) := by
          gcongr
          · linarith
          · norm_num
          · omega
      _ = 2 ^ (1024 : Int) := (zpow_add₀ two_ne_zero 54 970).symm

/-- Below a power of two the interval reaches a quarter of the spacing down. -/
theorem low_of_power {x : Binary64} {q : ℚ} (h : (window x).Contains q)
    (hpower : x.significand = 2 ^ 52) : (2 ^ 54 - 1) * 2 ^ (x.scale - 2) ≤ q := by
  have hlow := h.low_le
  simp only [Window.low, window, hpower] at hlow
  norm_num at hlow ⊢
  exact hlow

/-- All fractions in the interval of a positive double are rounded to it. -/
theorem ofRatio_of_contains {x : Binary64} (negative : Bool) {num den : Nat} (hnum : num ≠ 0)
    (hden : den ≠ 0) (h : (window x).Contains (num / den)) :
    ofRatio negative num den = ofMagnitude negative x.magnitude := by
  obtain ⟨hlow, hhigh, hstrict⟩ := bounds_of_contains h
  have hleast := x.neg_le_scale
  have hsignificand : (x.significand : ℚ) + 1 ≤ 2 ^ 53 := mod_cast x.significand_lt
  have hhalf : (0 : ℚ) < 2 ^ (x.scale - 1) := zpow_pos two_pos _
  have hpower (k : Int) (n : Nat) (hk : k = x.scale - 1 + n) :
      (2 : ℚ) ^ k = 2 ^ n * 2 ^ (x.scale - 1) := by
    rw [hk, zpow_add₀ two_ne_zero, zpow_natCast, mul_comm]
  by_cases hcase : (2 : ℚ) ^ (x.scale + 52) ≤ num / den ∨ x.scale = -1074
  · -- The spacing of the fraction is that of the double.
    rw [magnitude_eq]
    apply ofRatio_eq negative hnum hden hleast hcase
    · rw [hpower (x.scale + 53) 54 (by omega)]
      nlinarith
    · rw [hpower x.scale 1 (by omega), pow_one]
      exact .of_halves hhalf hlow hhigh hstrict
  · -- The fraction is below the power of two that the double is, where the spacing is half as wide.
    obtain ⟨hbelow, hscale⟩ := not_or.1 hcase
    rw [not_le, hpower (x.scale + 52) 53 (by omega)] at hbelow
    have hone : 1 ≤ x.exponent.val := by
      simp only [scale] at hscale
      omega
    have hsignificand : x.significand = 2 ^ 52 := by
      have hlt := lt_of_mul_lt_mul_right (hlow.trans_lt hbelow) hhalf.le
      have hle : x.significand < 2 ^ 52 + 1 := by
        exact_mod_cast (by linarith : (x.significand : ℚ) < 2 ^ 52 + 1)
      exact (Nat.le_of_lt_succ hle).antisymm (le_significand hone)
    have hquarter : (0 : ℚ) < 2 ^ (x.scale - 2) := zpow_pos two_pos _
    have hdouble := two_zpow_sub_one x.scale
    have hnear := low_of_power h hsignificand
    have hmagnitude : x.magnitude =
        (x.scale - 1 + 1074).toNat * 0x10000000000000 + 2 ^ 53 := by
      rw [magnitude_eq, hsignificand]
      omega
    rw [hmagnitude]
    apply ofRatio_eq negative hnum hden (by omega)
    · left
      rw [hpower (x.scale - 1 + 52) 52 (by omega)]
      linarith
    · rw [hpower (x.scale - 1 + 53) 53 (by omega)]
      exact hbelow
    · rw [hdouble] at hbelow ⊢
      apply IsNearest.of_halves hquarter
      · push_cast
        linarith
      · push_cast
        linarith
      · intro hodd
        omega

end Binary64

end EntityQuery
