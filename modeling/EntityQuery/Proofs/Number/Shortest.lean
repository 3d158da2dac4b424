import EntityQuery.Proofs.Number.Decimal
/-!
# Reading shortest texts back

The shortest text of a finite double is read as a decimal in the interval of the double, so it
is rounded to the double again. A grid of powers of ten is chosen for a point of it that lies in
the interval, and a grid that is fine enough always has one. Zeros that are left out, the point
and the power of ten do not change the number that a text denotes.
-/

namespace EntityQuery

open Text (fractionText fractionText_of_ne_nil)

namespace Shortest

variable {tie : Tie} {w : Window} {grid : Int} {n : Nat} {x : Binary64}

/-! ## Grids -/

/-- Quarter units and the steps of a grid as multiples of one number. -/
theorem exists_common_unit (scale grid : Int) :
    ∃ unit : ℚ, 0 < unit ∧
      (2 : ℚ) ^ scale = (Nat.pow 2 scale.toNat * Nat.pow 10 (-grid).toNat : Nat) * unit ∧
      (10 : ℚ) ^ grid = (Nat.pow 2 (-scale).toNat * Nat.pow 10 grid.toNat : Nat) * unit := by
  refine ⟨1 / (2 ^ (-scale).toNat * 10 ^ (-grid).toNat), by positivity, ?_, ?_⟩
  · rw [zpow_eq_div two_ne_zero, Nat.pow_eq, Nat.pow_eq]
    push_cast
    field_simp
  · rw [zpow_eq_div (by norm_num), Nat.pow_eq, Nat.pow_eq]
    push_cast
    field_simp

/-- A point of a grid lies in an interval if it does so in whole numbers. -/
theorem contains_of_le {up step : Nat} {unit : ℚ} (hunit : 0 < unit)
    (hscale : (2 : ℚ) ^ w.scale = up * unit) (hgrid : (10 : ℚ) ^ grid = step * unit)
    (hlow : w.value * up ≤ n * step + w.below * up) (hhigh : n * step ≤ w.value * up + w.above * up)
    (hinside : w.closed = false →
      w.value * up < n * step + w.below * up ∧ n * step < w.value * up + w.above * up) :
    w.Contains (n * 10 ^ grid) := by
  have hpoint : (n : ℚ) * 10 ^ grid = n * step * unit := by rw [hgrid, mul_assoc]
  have hlowEnd : w.low = (w.value * up - w.below * up) * unit := by
    rw [Window.low, hscale]
    ring
  have hhighEnd : w.high = (w.value * up + w.above * up) * unit := by
    rw [Window.high, hscale]
    ring
  rw [hpoint]
  refine ⟨?_, ?_, ?_⟩
  · rw [hlowEnd, mul_le_mul_iff_of_pos_right hunit, sub_le_iff_le_add]
    exact_mod_cast hlow
  · rw [hhighEnd, mul_le_mul_iff_of_pos_right hunit]
    exact_mod_cast hhigh
  · intro hopen
    rw [hlowEnd, hhighEnd, mul_lt_mul_iff_of_pos_right hunit, mul_lt_mul_iff_of_pos_right hunit,
      sub_lt_iff_lt_add]
    exact_mod_cast hinside hopen

/-- What is chosen on a grid lies in the interval. -/
theorem contains_of_gridPoint? (habove : 0 < w.above) (h : gridPoint? tie w grid = some n) :
    w.Contains (n * 10 ^ grid) := by
  obtain ⟨unit, hunit, hscale, hgrid⟩ := exists_common_unit w.scale grid
  have hup : 0 < Nat.pow 2 w.scale.toNat * Nat.pow 10 (-grid).toNat :=
    Nat.mul_pos (Nat.pow_pos (by decide)) (Nat.pow_pos (by decide))
  have hstep : 0 < Nat.pow 2 (-w.scale).toNat * Nat.pow 10 grid.toNat :=
    Nat.mul_pos (Nat.pow_pos (by decide)) (Nat.pow_pos (by decide))
  simp only [gridPoint?] at h
  generalize Nat.pow 2 w.scale.toNat * Nat.pow 10 (-grid).toNat = up at *
  generalize Nat.pow 2 (-w.scale).toNat * Nat.pow 10 grid.toNat = step at *
  have hreach : 0 < w.above * up := Nat.mul_pos habove hup
  have hsplit := Nat.div_add_mod' (w.value * up) step
  have hrest := Nat.mod_lt (w.value * up) hstep
  generalize w.value * up / step = lower at *
  generalize w.value * up % step = rest at *
  split_ifs at h with hlower hupper
  · -- The lower neighbour is as far below the value as the rest.
    obtain rfl : lower = n := Option.some.inj h
    have hfits : rest < w.below * up ∨ w.closed = true ∧ rest = w.below * up := by
      simpa using (Bool.and_eq_true_iff.1 hlower).1
    apply contains_of_le hunit hscale hgrid
    · omega
    · omega
    · intro hopen
      simp only [hopen, Bool.false_eq_true, false_and, or_false] at hfits
      omega
  · -- The upper neighbour is as far above the value as the rest lacks of a step.
    obtain rfl : lower + 1 = n := Option.some.inj h
    have hfits : step < rest + w.above * up ∨ w.closed = true ∧ step = rest + w.above * up := by
      simpa using hupper
    apply contains_of_le hunit hscale hgrid
    · rw [Nat.add_mul]
      omega
    · rw [Nat.add_mul]
      omega
    · intro hopen
      simp only [hopen, Bool.false_eq_true, false_and, or_false] at hfits
      rw [Nat.add_mul]
      omega

theorem two_pow_le_ten_pow {k l : Nat} (h : k ≤ 3 * l) : 2 ^ k ≤ 10 ^ l := by
  calc 2 ^ k ≤ 2 ^ (3 * l) := Nat.pow_le_pow_right (by decide) h
    _ = (2 ^ 3) ^ l := Nat.pow_mul ..
    _ ≤ 10 ^ l := Nat.pow_le_pow_left (by decide) l

/-- On a grid whose steps are no longer than the interval reaches down, a point is chosen. Three
powers of two are less than a power of ten. -/
theorem exists_gridPoint? (tie : Tie) (hbelow : 0 < w.below) (hgrid : grid ≤ 0)
    (h : (-w.scale).toNat ≤ 3 * (-grid).toNat) : ∃ n, gridPoint? tie w grid = some n := by
  have hzero : grid.toNat = 0 := by omega
  have hstep : 0 < Nat.pow 2 (-w.scale).toNat * Nat.pow 10 grid.toNat :=
    Nat.mul_pos (Nat.pow_pos (by decide)) (Nat.pow_pos (by decide))
  have hfine : Nat.pow 2 (-w.scale).toNat * Nat.pow 10 grid.toNat ≤
      w.below * (Nat.pow 2 w.scale.toNat * Nat.pow 10 (-grid).toNat) := by
    calc 2 ^ (-w.scale).toNat * 10 ^ grid.toNat
        ≤ 1 * (1 * 10 ^ (-grid).toNat) := by
          rw [hzero, Nat.pow_zero, mul_one, one_mul, one_mul]
          exact two_pow_le_ten_pow h
      _ ≤ w.below * (2 ^ w.scale.toNat * 10 ^ (-grid).toNat) :=
          Nat.mul_le_mul hbelow (Nat.mul_le_mul_right _ (Nat.pow_pos (by decide)))
  have hlower := (Nat.mod_lt (w.value * (Nat.pow 2 w.scale.toNat * Nat.pow 10 (-grid).toNat))
    hstep).trans_le hfine
  simp only [gridPoint?]
  split_ifs with hchosen hupper
  · exact ⟨_, rfl⟩
  · exact ⟨_, rfl⟩
  · rw [Bool.not_eq_true] at hupper
    simp only [hlower, hupper, decide_true, Bool.true_or, Bool.false_and, Bool.not_false,
      Bool.true_and, not_true_eq_false] at hchosen

/-! ## The search -/

theorem gridPoint?_of_search {count : Nat} {start : Int}
    (h : search tie w count start = some (n, grid)) : gridPoint? tie w grid = some n := by
  induction count generalizing start with
  | zero => cases h
  | succ count ih =>
      rw [search] at h
      split at h
      · next hpoint =>
          cases h
          exact hpoint
      · exact ih h

theorem exists_search {count : Nat} {start : Int} {i : Nat} (hi : i < count)
    (h : gridPoint? tie w (start - i) = some n) :
    ∃ n' grid, search tie w count start = some (n', grid) := by
  induction count generalizing start i with
  | zero => cases hi
  | succ count ih =>
      rw [search]
      cases hpoint : gridPoint? tie w start with
      | some n' => exact ⟨n', start, rfl⟩
      | none =>
          obtain _ | i := i
          · rw [Nat.cast_zero, sub_zero, hpoint] at h
            cases h
          · have hnext : start - 1 - (i : Int) = start - (i + 1 : Nat) := by
              push_cast
              ring
            exact ih (Nat.lt_of_succ_lt_succ hi) (hnext ▸ h)

/-- The finest of the grids that are searched has a point for every double. -/
theorem exists_search_window (tie : Tie) (x : Binary64) :
    ∃ n grid, search tie (window x) 700 309 = some (n, grid) := by
  have hbelow : 0 < (window x).below := by
    simp only [window]
    split <;> decide
  have hscale : (-(window x).scale).toNat ≤ 3 * (-(309 - (699 : Nat) : Int)).toNat := by
    have hleast := x.neg_le_scale
    simp only [window]
    omega
  obtain ⟨n, hn⟩ := exists_gridPoint? tie hbelow (by decide) hscale
  exact exists_search (by decide) hn

/-! ## Digits -/

/-- Digits without the zeros at their end, and these zeros. -/
theorem exists_trailing_zeros (digits : List Char) :
    ∃ count,
      digits = (digits.reverse.dropWhile (· == '0')).reverse ++ List.replicate count '0' := by
  refine ⟨(digits.reverse.takeWhile (· == '0')).length, ?_⟩
  have hzeros : digits.reverse.takeWhile (· == '0') =
      List.replicate (digits.reverse.takeWhile (· == '0')).length '0' := by
    rw [List.eq_replicate_length]
    intro c hc
    simpa using List.mem_takeWhile_imp hc
  have hsplit := congrArg List.reverse
    (List.takeWhile_append_dropWhile (p := (· == '0')) (l := digits.reverse))
  rw [List.reverse_append, List.reverse_reverse] at hsplit
  rw [← List.reverse_replicate, ← hzeros]
  exact hsplit.symm

/-- The digits of a positive double denote a number in its interval. -/
theorem contains_digits (tie : Tie) (hpos : 0 < x.magnitude) :
    (digits tie x).digits ≠ [] ∧ (∀ c ∈ (digits tie x).digits, Text.isDigit c = true) ∧
      (window x).Contains (Text.natOfDigits (digits tie x).digits *
        10 ^ ((digits tie x).point - (digits tie x).digits.length)) := by
  obtain ⟨n, grid, hsearch⟩ := exists_search_window tie x
  have hpoint := contains_of_gridPoint? (by simp [window]) (gridPoint?_of_search hsearch)
  obtain ⟨count, hcount⟩ := exists_trailing_zeros (Text.natDigits n)
  have hdigits : digits tie x = ⟨((Text.natDigits n).reverse.dropWhile (· == '0')).reverse,
      (Text.natDigits n).length + grid⟩ := by
    simp only [digits, hsearch]
  rw [hdigits]
  generalize ((Text.natDigits n).reverse.dropWhile (· == '0')).reverse = trimmed at hcount ⊢
  have hvalue : n = 10 ^ count * Text.natOfDigits trimmed := by
    rw [← Text.natOfDigits_append_replicate, ← hcount, Text.natOfDigits_natDigits]
  have hlength : (Text.natDigits n).length = trimmed.length + count := by
    rw [hcount, List.length_append, List.length_replicate]
  refine ⟨?_, ?_, ?_⟩
  · rintro rfl
    obtain ⟨hlow, -⟩ := Binary64.bounds_of_contains hpoint
    have hone : (1 : ℚ) ≤ x.significand := mod_cast Binary64.significand_pos hpos
    rw [hvalue, Text.natOfDigits_nil, mul_zero, Nat.cast_zero, zero_mul] at hlow
    have hhalf : (0 : ℚ) < (2 * x.significand - 1) * 2 ^ (x.scale - 1) :=
      mul_pos (by linarith) (by positivity)
    exact absurd hlow (not_le.2 hhalf)
  · intro c hc
    have hmem : c ∈ Text.natDigits n := by
      rw [hcount]
      exact List.mem_append_left _ hc
    exact Text.isDigit_of_mem_natDigits hmem
  · have hexponent : ((Text.natDigits n).length + grid - trimmed.length : Int) = count + grid := by
      rw [hlength]
      push_cast
      ring
    rw [hexponent, zpow_add₀ (by norm_num), zpow_natCast]
    rw [hvalue] at hpoint
    push_cast at hpoint
    convert hpoint using 1
    ring

end Shortest

open Decimal

/-! ## Layouts -/

namespace NumberStyle

/-- A whole number has no point, or zeros behind it. -/
def IsReadable (style : NumberStyle) : Prop :=
  ∃ count, style.wholeSuffix = fractionText (List.replicate count '0')

theorem isReadable_json : json.IsReadable :=
  ⟨1, rfl⟩

variable {style : NumberStyle} {d : ShortDigits}

theorem exists_read?_positionalText (hstyle : style.IsReadable)
    (hdigits : ∀ c ∈ d.digits, Text.isDigit c = true) (hne : d.digits ≠ []) (negative : Bool) :
    ∃ r, Decimal.read? (signText negative ++ style.positionalText d) = some r ∧
      r.negative = negative ∧
      r.absolute = Text.natOfDigits d.digits * 10 ^ (d.point - d.digits.length) := by
  obtain ⟨digits, point⟩ := d
  simp only at hdigits hne ⊢
  have hlength : 0 < digits.length := List.length_pos_iff.2 hne
  have hzeros (count : Nat) : ∀ c ∈ List.replicate count '0', Text.isDigit c = true :=
    List.forall_mem_replicate.2 (.inr rfl)
  simp only [positionalText]
  split_ifs with hsmall hmiddle
  · -- All digits are behind the point, and zeros before them.
    let zeros := List.replicate (-point).toNat '0'
    have hfraction : zeros ++ digits ≠ [] := by simp [hne]
    have htext : "0.".toList ++ zeros ++ digits =
        ['0'] ++ (fractionText (zeros ++ digits) ++ powerText none) := by
      rw [fractionText_of_ne_nil hfraction, powerText, List.append_nil, List.append_assoc]
      rfl
    obtain ⟨r, hread, hnegative, habsolute⟩ := exists_read?_append negative
      (List.forall_mem_singleton.2 rfl) (List.cons_ne_nil '0' [])
      (List.forall_mem_append.2 ⟨hzeros _, hdigits⟩) htext
    refine ⟨r, hread, hnegative, ?_⟩
    have hvalue : Text.natOfDigits (['0'] ++ (zeros ++ digits)) = Text.natOfDigits digits :=
      Text.natOfDigits_replicate_append ((-point).toNat + 1) digits
    have hexponent : (0 - (zeros ++ digits).length : Int) = point - digits.length := by
      rw [List.length_append, List.length_replicate]
      omega
    rw [habsolute, hvalue, Option.getD_none, hexponent]
  · -- The point is among the digits.
    have hwhole : digits.take point.toNat ≠ [] := by
      rw [← List.length_pos_iff, List.length_take]
      omega
    have hfraction : digits.drop point.toNat ≠ [] := by
      rw [← List.length_pos_iff, List.length_drop]
      omega
    have htext : digits.take point.toNat ++ '.' :: digits.drop point.toNat =
        digits.take point.toNat ++ (fractionText (digits.drop point.toNat) ++ powerText none) := by
      rw [fractionText_of_ne_nil hfraction, powerText, List.append_nil]
    obtain ⟨r, hread, hnegative, habsolute⟩ := exists_read?_append negative
      (fun c hc => hdigits c (List.mem_of_mem_take hc)) hwhole
      (fun c hc => hdigits c (List.mem_of_mem_drop hc)) htext
    refine ⟨r, hread, hnegative, ?_⟩
    have hexponent : (0 - (digits.drop point.toNat).length : Int) = point - digits.length := by
      rw [List.length_drop]
      omega
    rw [habsolute, List.take_append_drop, Option.getD_none, hexponent]
  · -- The digits are a whole number without the zeros at its end.
    obtain ⟨count, hcount⟩ := hstyle
    obtain ⟨missing, hmissing⟩ := Int.eq_ofNat_of_zero_le (sub_nonneg.2 (not_lt.1 hmiddle))
    have htext : digits ++ List.replicate (point - digits.length).toNat '0' ++ style.wholeSuffix =
        digits ++ List.replicate missing '0' ++
          (fractionText (List.replicate count '0') ++ powerText none) := by
      rw [hcount, powerText, List.append_nil, hmissing, Int.toNat_natCast]
    obtain ⟨r, hread, hnegative, habsolute⟩ := exists_read?_append negative
      (List.forall_mem_append.2 ⟨hdigits, hzeros _⟩) (by simp [hne]) (hzeros count) htext
    refine ⟨r, hread, hnegative, ?_⟩
    rw [habsolute, Text.natOfDigits_append_replicate, Text.natOfDigits_append_replicate, hmissing,
      List.length_replicate, Option.getD_none, zero_sub, zpow_neg, zpow_natCast, zpow_natCast]
    push_cast
    field_simp

/-- A power of ten behind digits around a point denotes the number of the digits. -/
theorem exists_read?_scientificText (hdigits : ∀ c ∈ d.digits, Text.isDigit c = true)
    (hne : d.digits ≠ []) (negative : Bool) :
    ∃ r, Decimal.read? (signText negative ++ scientificText d) = some r ∧ r.negative = negative ∧
      r.absolute = Text.natOfDigits d.digits * 10 ^ (d.point - d.digits.length) := by
  obtain ⟨digits, point⟩ := d
  obtain ⟨first, rest, rfl⟩ := List.exists_cons_of_ne_nil hne
  have htext : scientificText ⟨first :: rest, point⟩ =
      [first] ++ (fractionText rest ++ powerText (some (point - 1))) := by
    by_cases hneg : point - 1 < 0 <;> cases rest <;>
      simp [scientificText, powerText, Integer.write, fractionText, hneg]
  obtain ⟨hfirst, hrest⟩ := List.forall_mem_cons.1 hdigits
  obtain ⟨r, hread, hnegative, habsolute⟩ := exists_read?_append negative
    (List.forall_mem_singleton.2 hfirst) (by simp) hrest htext
  refine ⟨r, hread, hnegative, ?_⟩
  have hexponent : (point - 1 - rest.length : Int) = point - (first :: rest).length := by
    rw [List.length_cons]
    omega
  rw [habsolute, Option.getD_some, hexponent]
  rfl

end NumberStyle

/-! ## Doubles -/

/-- The decimal has the sign of the double and is rounded to it, and it is zero for a zero. -/
structure Decimal.RoundsTo (d : Decimal) (x : Binary64) : Prop where
  negative : d.negative = x.negative
  zero : x.magnitude = 0 → d.absolute = 0
  contains : 0 < x.magnitude → (Shortest.window x).Contains d.absolute

theorem Decimal.RoundsTo.toBinary64_eq {d : Decimal} {x : Binary64} (h : d.RoundsTo x)
    (hfinite : x.isFinite = true) : d.toBinary64 = x := by
  obtain hzero | hpos := x.magnitude.eq_zero_or_pos
  · rw [toBinary64, if_pos (absolute_eq_zero.1 (h.zero hzero)), h.negative, Binary64.zero, ← hzero]
    exact Binary64.ofMagnitude_magnitude hfinite
  · rw [toBinary64_of_contains hfinite hpos (h.contains hpos), h.negative]
    exact Binary64.ofMagnitude_magnitude hfinite

namespace Binary64

variable {style : NumberStyle} {x : Binary64}

theorem exists_read?_write (hstyle : style.IsReadable) (hfinite : x.isFinite = true) :
    ∃ d, Decimal.read? (x.write style) = some d ∧ d.RoundsTo x := by
  have hnan := not_isNaN_of_isFinite hfinite
  have hinfinite : x.isInfinite = false := by
    simpa [isInfinite] using (isFinite_iff.1 hfinite).ne
  obtain hzero | hpos := x.magnitude.eq_zero_or_pos
  · have hiszero : x.isZero = true := by simpa [isZero] using hzero
    obtain ⟨count, hcount⟩ := hstyle
    have htext : ['0'] ++ style.wholeSuffix =
        ['0'] ++ (fractionText (List.replicate count '0') ++ powerText none) := by
      rw [hcount, powerText, List.append_nil]
    obtain ⟨r, hread, hnegative, habsolute⟩ := exists_read?_append x.negative
      (List.forall_mem_singleton.2 rfl) (List.cons_ne_nil '0' [])
      (List.forall_mem_replicate.2 (.inr rfl)) htext
    have hwrite : x.write style = signText x.negative ++ (['0'] ++ style.wholeSuffix) := by
      simp [write, hnan, hinfinite, hiszero, signText]
    refine ⟨r, hwrite ▸ hread, hnegative, ?_, fun hpos => absurd hzero hpos.ne'⟩
    intro _
    have hvalue : Text.natOfDigits ['0'] = 0 := rfl
    rw [habsolute, Text.natOfDigits_append_replicate, hvalue, mul_zero, Nat.cast_zero, zero_mul]
  · have hiszero : x.isZero = false := by simpa [isZero] using hpos.ne'
    obtain ⟨hne, hdigits, hcontains⟩ := Shortest.contains_digits style.tie hpos
    obtain ⟨text, hwrite, r, hread, hnegative, habsolute⟩ : ∃ text,
        x.write style = signText x.negative ++ text ∧
        ∃ r, Decimal.read? (signText x.negative ++ text) = some r ∧ r.negative = x.negative ∧
          r.absolute = Text.natOfDigits (Shortest.digits style.tie x).digits *
            10 ^ ((Shortest.digits style.tie x).point -
              (Shortest.digits style.tie x).digits.length) := by
      by_cases hlayout : style.positional (Shortest.digits style.tie x).point = true
      · refine ⟨style.positionalText (Shortest.digits style.tie x), ?_,
          NumberStyle.exists_read?_positionalText hstyle hdigits hne x.negative⟩
        simp [write, hnan, hinfinite, hiszero, hlayout, signText]
      · refine ⟨NumberStyle.scientificText (Shortest.digits style.tie x), ?_,
          NumberStyle.exists_read?_scientificText hdigits hne x.negative⟩
        simp [write, hnan, hinfinite, hiszero, hlayout, signText]
    refine ⟨r, hwrite ▸ hread, hnegative, fun hzero => absurd hzero hpos.ne', ?_⟩
    intro _
    rw [habsolute]
    exact hcontains

theorem magnitude_zero (negative : Bool) : (zero negative).magnitude = 0 := by
  cases negative <;> rfl

/-- Without a power of ten the decimal is still rounded to the number of the double, which for a
zero may be the other zero, and is not rounded to zero unless it is zero. -/
theorem value_of_plainText {d r : Decimal} (hfinite : x.isFinite = true) (h : d.RoundsTo x)
    (hread : Decimal.read? d.plainText = some r) :
    r.toBinary64.isFinite = true ∧ r.toBinary64.value = x.value ∧
      (r.toBinary64.magnitude = 0 → r.coefficient = 0) := by
  obtain ⟨r', hread', hnegative, habsolute⟩ := exists_read?_plainText d
  obtain rfl : r' = r := Option.some.inj (hread'.symm.trans hread)
  obtain hzero | hpos := x.magnitude.eq_zero_or_pos
  · have hcoefficient : r'.coefficient = 0 :=
      Decimal.absolute_eq_zero.1 (habsolute.trans (h.zero hzero))
    rw [toBinary64, if_pos hcoefficient]
    refine ⟨isFinite_iff.2 (magnitude_zero _ ▸ by decide), ?_, fun _ => hcoefficient⟩
    rw [value_of_magnitude_eq_zero (magnitude_zero _), value_of_magnitude_eq_zero hzero]
  · have hcoefficient := (order_of_contains hfinite hpos (h.contains hpos)).1
    have hrounds : r'.RoundsTo x := by
      refine ⟨?_, fun hzero => absurd hzero hpos.ne', ?_⟩
      · rw [hnegative, h.negative]
        simp [hcoefficient]
      · intro _
        rw [habsolute]
        exact h.contains hpos
    rw [hrounds.toBinary64_eq hfinite]
    exact ⟨hfinite, rfl, fun hzero => absurd hzero hpos.ne'⟩

end Binary64

end EntityQuery
