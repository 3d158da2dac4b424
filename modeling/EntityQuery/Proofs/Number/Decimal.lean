import EntityQuery.Number.Decimal
import EntityQuery.Proofs.Number.Integer
import EntityQuery.Proofs.Number.Nearest
/-!
# The numbers that decimals denote

A decimal is rounded to the double whose interval it lies in; that it is not computed with a
power of ten beyond the range of doubles makes no difference. A text of digits around a point
with a power of ten behind it is read as the number that it denotes.
-/

namespace EntityQuery

open Text (fractionText)

namespace Decimal

variable {d : Decimal} {x : Binary64}

def absolute (d : Decimal) : ℚ :=
  d.coefficient * 10 ^ d.exponent

theorem absolute_eq_zero : d.absolute = 0 ↔ d.coefficient = 0 := by
  have hpower : (10 : ℚ) ^ d.exponent ≠ 0 := by positivity
  rw [absolute, mul_eq_zero, or_iff_left hpower, Nat.cast_eq_zero]

/-! ## Rounding -/

theorem ratio_eq (d : Decimal) : (d.ratio.1 : ℚ) / d.ratio.2 = d.absolute := by
  rw [absolute, zpow_eq_div (by norm_num), ratio, Nat.pow_eq, Nat.pow_eq]
  push_cast
  ring

theorem length_natDigits_le_iff {n k : Nat} (h : 0 < k) :
    (Text.natDigits n).length ≤ k ↔ n < 10 ^ k :=
  Nat.length_toDigits_le_iff (by decide) h

theorem length_natDigits_pos (n : Nat) : 0 < (Text.natDigits n).length :=
  List.length_pos_iff.2 Nat.toDigits_ne_nil

/-- A decimal is below the power of ten that its order names. -/
theorem absolute_lt (d : Decimal) : d.absolute < 10 ^ d.order := by
  have hlt : (d.coefficient : ℚ) < 10 ^ (Text.natDigits d.coefficient).length :=
    mod_cast (length_natDigits_le_iff (length_natDigits_pos _)).1 le_rfl
  rw [absolute, order, zpow_add₀ (by norm_num), zpow_natCast]
  gcongr

/-- A decimal other than zero is not below the power of ten before that. -/
theorem le_absolute (h : d.coefficient ≠ 0) : 10 ^ (d.order - 1) ≤ d.absolute := by
  obtain ⟨k, hk⟩ : ∃ k, (Text.natDigits d.coefficient).length = k + 1 :=
    Nat.exists_eq_succ_of_ne_zero (length_natDigits_pos _).ne'
  have hle : 10 ^ k ≤ d.coefficient := by
    obtain rfl | hpos := k.eq_zero_or_pos
    · exact Nat.one_le_iff_ne_zero.2 h
    · have hlong : ¬ (Text.natDigits d.coefficient).length ≤ k := by omega
      exact not_lt.1 (mt (length_natDigits_le_iff hpos).2 hlong)
  have hcast : (10 : ℚ) ^ k ≤ d.coefficient := mod_cast hle
  have hexponent : d.order - 1 = (k : Int) + d.exponent := by
    rw [order, hk]
    push_cast
    ring
  rw [absolute, hexponent, zpow_add₀ (by norm_num), zpow_natCast]
  gcongr

/-- What is rounded to a positive double has an order within the range of doubles. -/
theorem order_of_contains (hfinite : x.isFinite = true) (hpos : 0 < x.magnitude)
    (h : (Shortest.window x).Contains d.absolute) :
    d.coefficient ≠ 0 ∧ -330 ≤ d.order ∧ d.order ≤ 310 := by
  obtain ⟨hlow, hhigh⟩ := Binary64.range_of_contains hfinite hpos h
  have hten : (1 : ℚ) < 10 := by norm_num
  have hleast : (10 : ℚ) ^ (-330 : Int) < 2 ^ (-1075 : Int) := by
    have hlt : 2 ^ 1075 < 10 ^ 330 := by decide +kernel
    rw [zpow_neg, zpow_neg]
    exact inv_strictAnti₀ (by positivity) (mod_cast hlt)
  have hgreatest : (2 : ℚ) ^ (1024 : Int) < 10 ^ (310 : Int) := by
    have hlt : 2 ^ 1024 < 10 ^ 310 := by decide +kernel
    exact_mod_cast hlt
  have hne : d.coefficient ≠ 0 := by
    intro hzero
    rw [absolute, hzero, Nat.cast_zero, zero_mul] at hlow
    exact absurd hlow (not_le.2 (by positivity))
  refine ⟨hne, ?_, ?_⟩
  · have hlt := hleast.trans_le (hlow.trans d.absolute_lt.le)
    exact ((zpow_lt_zpow_iff_right₀ hten).1 hlt).le
  · have hlt := ((le_absolute hne).trans hhigh).trans_lt hgreatest
    have horder := (zpow_lt_zpow_iff_right₀ hten).1 hlt
    omega

/-- A decimal in the interval of a positive double is rounded to the double. -/
theorem toBinary64_of_contains (hfinite : x.isFinite = true) (hpos : 0 < x.magnitude)
    (h : (Shortest.window x).Contains d.absolute) :
    d.toBinary64 = .ofMagnitude d.negative x.magnitude := by
  obtain ⟨hne, hlow, hhigh⟩ := order_of_contains hfinite hpos h
  have hnum : d.ratio.1 ≠ 0 := Nat.mul_ne_zero hne (Nat.pow_pos (by decide)).ne'
  have hden : d.ratio.2 ≠ 0 := (Nat.pow_pos (by decide)).ne'
  rw [toBinary64, if_neg hne, if_neg (by omega), if_neg (by omega)]
  exact Binary64.ofRatio_of_contains _ hnum hden (by rwa [ratio_eq])

theorem toBinary64_whole (negative : Bool) {n : Nat} (h : (Text.natDigits n).length ≤ 310) :
    toBinary64 ⟨negative, n, 0⟩ = .ofRatio negative n 1 := by
  by_cases hzero : n = 0
  · rw [toBinary64, if_pos hzero, Binary64.ofRatio, if_pos hzero]
  · have horder : order ⟨negative, n, 0⟩ = (Text.natDigits n).length := Int.add_zero _
    have hratio : ratio ⟨negative, n, 0⟩ = (n, 1) := Prod.ext (Nat.mul_one n) rfl
    rw [toBinary64, if_neg hzero, if_neg (by omega), if_neg (by omega), hratio]

/-- A 64-bit integer is rounded as an integer. -/
theorem toBinary64_integer (n : Int64) :
    toBinary64 ⟨n.toInt < 0, n.toInt.natAbs, 0⟩ = .ofInt n.toInt := by
  have hlow := n.le_toInt
  have hhigh := n.toInt_lt
  have hlength : (Text.natDigits n.toInt.natAbs).length ≤ 19 :=
    (length_natDigits_le_iff (by decide)).2 (by omega)
  exact toBinary64_whole _ (by omega)

/-! ## Reading -/

/-- A power of ten behind its mark, if there is one. -/
def powerText : Option Int → List Char
  | some power => 'e' :: Integer.write power
  | none => []

theorem scanSign_signText (negative : Bool) {c : Char} (hc : Text.isDigit c = true)
    (rest : List Char) : scanSign (signText negative ++ c :: rest) = (negative, c :: rest) := by
  cases negative with
  | true => rfl
  | false =>
      obtain ⟨hminus, hplus⟩ := ne_sign_of_isDigit hc
      simp [signText, scanSign, hminus, hplus]

theorem readExponent?_powerText (power : Option Int) :
    readExponent? (powerText power) = some (power.getD 0) := by
  cases power with
  | none => rfl
  | some n =>
      have hdigits : (Text.natDigits n.natAbs).all Text.isDigit = true :=
        List.all_eq_true.2 fun _ hc => Text.isDigit_of_mem_natDigits hc
      obtain ⟨c, rest, hcons⟩ : ∃ c rest, Text.natDigits n.natAbs = c :: rest :=
        List.exists_cons_of_ne_nil Nat.toDigits_ne_nil
      have hc : Text.isDigit c = true :=
        Text.isDigit_of_mem_natDigits (hcons ▸ List.mem_cons_self)
      have hscan := scanSign_signText (n < 0) hc rest
      rw [← hcons, ← Integer.write_eq] at hscan
      have hsome : (Text.natDigits n.natAbs).isEmpty = false := by simp [hcons]
      simp only [powerText, readExponent?, hscan, hsome, hdigits, Text.natOfDigits_natDigits]
      by_cases hneg : n < 0
      · have habs : (-(n.natAbs : Int)) = n := by omega
        simp only [hneg, habs]
        rfl
      · have habs : (n.natAbs : Int) = n := by omega
        simp only [hneg, habs]
        rfl

theorem read?_append (negative : Bool) {whole fraction : List Char}
    (hwhole : ∀ c ∈ whole, Text.isDigit c = true) (hne : whole ≠ [])
    (hfraction : ∀ c ∈ fraction, Text.isDigit c = true) (power : Option Int) :
    read? (signText negative ++ (whole ++ (fractionText fraction ++ powerText power))) =
      some ⟨negative, Text.natOfDigits (whole ++ fraction), power.getD 0 - fraction.length⟩ := by
  obtain ⟨c, rest, hcons⟩ := List.exists_cons_of_ne_nil hne
  have hsign :
      scanSign (signText negative ++ (whole ++ (fractionText fraction ++ powerText power))) =
        (negative, whole ++ (fractionText fraction ++ powerText power)) := by
    rw [hcons, List.cons_append]
    exact scanSign_signText negative (hwhole c (hcons ▸ List.mem_cons_self)) _
  have hmark : Text.NoDigitAhead (powerText power) := by
    cases power <;> simp [powerText, Text.isDigit]
  have hpoint : Text.NoDigitAhead (fractionText fraction ++ powerText power) :=
    Text.noDigitAhead_fractionText_append hmark
  have hfront : scanFraction (fractionText fraction ++ powerText power) =
      (fraction, powerText power) := by
    cases fraction with
    | nil => cases power <;> rfl
    | cons d digits => exact Text.scanDigits_append hfraction hmark
  have hsome : whole.isEmpty = false := by simp [hcons]
  simp only [read?, hsign, Text.scanDigits_append hwhole hpoint, hfront, hsome,
    readExponent?_powerText, Bool.false_and, Bool.false_eq_true, if_false, Option.map_some]

/-- What such a text denotes. -/
theorem exists_read?_append (negative : Bool) {whole fraction text : List Char}
    {power : Option Int} (hwhole : ∀ c ∈ whole, Text.isDigit c = true) (hne : whole ≠ [])
    (hfraction : ∀ c ∈ fraction, Text.isDigit c = true)
    (htext : text = whole ++ (fractionText fraction ++ powerText power)) :
    ∃ r, read? (signText negative ++ text) = some r ∧ r.negative = negative ∧
      r.absolute =
        Text.natOfDigits (whole ++ fraction) * 10 ^ (power.getD 0 - fraction.length) := by
  rw [htext]
  exact ⟨_, read?_append negative hwhole hne hfraction power, rfl, rfl⟩

theorem read?_integer (n : Int) : read? (Integer.write n) = some ⟨n < 0, n.natAbs, 0⟩ := by
  have hfraction : ∀ c ∈ ([] : List Char), Text.isDigit c = true := nofun
  have hread := read?_append (n < 0) (fun _ hc => Text.isDigit_of_mem_natDigits hc)
    (Nat.toDigits_ne_nil : Text.natDigits n.natAbs ≠ []) hfraction none
  simpa [fractionText, powerText, ← Integer.write_eq, Text.natOfDigits_natDigits] using hread

/-- The digits of a decimal around a point, without a power of ten. Zero has no sign. -/
def plainText (d : Decimal) : List Char :=
  let places := (-d.exponent).toNat
  let digits := Text.paddedDigits (places + 1) (d.coefficient * 10 ^ d.exponent.toNat)
  signText (d.negative && d.coefficient ≠ 0) ++ (digits.take (digits.length - places) ++
    fractionText (digits.drop (digits.length - places)))

/-- A decimal without a power of ten is read as the same number. -/
theorem exists_read?_plainText (d : Decimal) :
    ∃ r, read? d.plainText = some r ∧ r.negative = (d.negative && d.coefficient ≠ 0) ∧
      r.absolute = d.absolute := by
  obtain ⟨places, hplaces⟩ : ∃ places, places = (-d.exponent).toNat := ⟨_, rfl⟩
  obtain ⟨digits, hdigits⟩ : ∃ digits, digits =
    Text.paddedDigits (places + 1) (d.coefficient * 10 ^ d.exponent.toNat) := ⟨_, rfl⟩
  have hall : ∀ c ∈ digits, Text.isDigit c = true := by
    intro c hc
    exact Text.isDigit_of_mem_paddedDigits (hdigits ▸ hc)
  have hlength : places + 1 ≤ digits.length := hdigits ▸ Text.le_length_paddedDigits _ _
  have hwhole : digits.take (digits.length - places) ≠ [] := by
    rw [← List.length_pos_iff, List.length_take]
    omega
  have hfraction : (digits.drop (digits.length - places)).length = places := by
    rw [List.length_drop]
    omega
  have htext : d.plainText = signText (d.negative && d.coefficient ≠ 0) ++
      (digits.take (digits.length - places) ++
        fractionText (digits.drop (digits.length - places))) := by
    rw [hdigits, hplaces]
    rfl
  obtain ⟨r, hread, hnegative, habsolute⟩ := exists_read?_append (d.negative && d.coefficient ≠ 0)
    (fun c hc => hall c (List.mem_of_mem_take hc)) hwhole
    (fun c hc => hall c (List.mem_of_mem_drop hc))
    (congrArg _ (List.append_nil _).symm : _ = _ ++ (_ ++ powerText none))
  refine ⟨r, htext ▸ hread, hnegative, ?_⟩
  rw [habsolute, List.take_append_drop, hfraction, hdigits, Text.natOfDigits_paddedDigits,
    ← d.ratio_eq, Option.getD_none, zero_sub, zpow_neg, zpow_natCast, ratio, Nat.pow_eq, Nat.pow_eq,
    div_eq_mul_inv, hplaces]
  push_cast
  rfl

end Decimal

end EntityQuery
