import EntityQuery.Proofs.Relational.Sorting
import EntityQuery.Proofs.Time.Reading
/-!
# Instants to the microsecond

The database keeps instants to the microsecond. Before a text is cast to an instant the digits of
its fraction behind the sixth are cut off, and the cast takes the nearest whole number of
microseconds. What is left denotes the instant rounded down, which the cast does not change.

A text has more than six digits in its fraction only if the instant is no whole number of
microseconds. Then the fraction is written with nine digits, and it holds the only point of the
text.
-/

namespace EntityQuery

open Relational Text

/-! ## Fractions -/

theorem point_not_mem_of_isDigit {digits : List Char} (h : ∀ c ∈ digits, isDigit c = true) :
    '.' ∉ digits := by
  intro hpoint
  cases h '.' hpoint

theorem point_not_mem_fixedDigits (width n : Nat) : '.' ∉ fixedDigits width n :=
  point_not_mem_of_isDigit fun _ hc => isDigit_of_mem_fixedDigits hc

theorem Date.point_not_mem_write (d : Date) : '.' ∉ d.write := by
  have hpadded (width n : Nat) : '.' ∉ paddedDigits width n :=
    point_not_mem_of_isDigit fun _ hc => isDigit_of_mem_paddedDigits hc
  have hyear (year : Int) : '.' ∉ writeYear year := by
    rw [writeYear]
    split
    · exact point_not_mem_fixedDigits 4 year.toNat
    · split <;> simp [hpadded]
  simp [write, hyear, point_not_mem_fixedDigits]

namespace Instant

theorem point_not_mem_writeSeconds (t : Instant) : '.' ∉ t.writeSeconds := by
  simp [writeSeconds, t.date.point_not_mem_write, point_not_mem_fixedDigits]

end Instant

namespace Relational

/-- What has no point is not cut. -/
theorem cutFraction_append {front : List Char} (h : '.' ∉ front) (rest : List Char) :
    cutFraction (front ++ rest) = front ++ cutFraction rest := by
  induction front with
  | nil => rfl
  | cons c front ih =>
      rw [List.mem_cons, not_or] at h
      obtain ⟨hc, hfront⟩ := h
      rw [List.cons_append, cutFraction, if_neg (fun hcut => hc hcut.1.symm), ih hfront]
      rfl

/-- Of the digits behind the first point six are left. -/
theorem cutFraction_point {digits rest : List Char} (h : ∀ c ∈ digits, isDigit c = true)
    (hrest : ∀ c ∈ rest.head?, isDigit c = false) (hpoint : '.' ∉ rest) :
    cutFraction ('.' :: (digits ++ rest)) = '.' :: (digits.take 6 ++ rest) := by
  rw [cutFraction, takeWhile_append_of_head h hrest, dropWhile_append_of_head h hrest]
  by_cases hlong : 6 < digits.length
  · rw [if_pos ⟨rfl, hlong⟩]
    rfl
  · have hclean : '.' ∉ digits ++ rest := by
      simp [point_not_mem_of_isDigit h, hpoint]
    have huncut := cutFraction_append hclean []
    rw [List.append_nil, cutFraction, List.append_nil] at huncut
    rw [if_neg (fun hcut => hlong hcut.2), huncut, List.take_of_length_le (not_lt.1 hlong)]

/-- Of a fraction of nine digits the first six are left. A shorter one is not cut. -/
theorem cutFraction_shortest (nano : Nat) :
    cutFraction (FractionStyle.shortest.write nano ++ ['Z']) =
      if nano % 1000 = 0 then FractionStyle.shortest.write nano ++ ['Z']
      else '.' :: fixedDigits 6 (nano / 1000) ++ ['Z'] := by
  have hpoint (width n : Nat) : cutFraction ('.' :: fixedDigits width n ++ ['Z']) =
      '.' :: (fixedDigits width n).take 6 ++ ['Z'] :=
    cutFraction_point (fun _ hc => isDigit_of_mem_fixedDigits hc) (by simp [isDigit]) (by decide)
  have hshort {width : Nat} (hwidth : width ≤ 6) (n : Nat) :
      (fixedDigits width n).take 6 = fixedDigits width n :=
    List.take_of_length_le (by rwa [length_fixedDigits])
  split_ifs with hmicros
  · simp only [FractionStyle.write, if_pos hmicros]
    split_ifs
    · rfl
    · rw [hpoint, hshort (by decide)]
    · rw [hpoint, hshort le_rfl]
  · have hzero : nano ≠ 0 := by omega
    have hmillis : nano % 1000000 ≠ 0 := by omega
    have hpower : 10 ^ 3 = 1000 := rfl
    simp only [FractionStyle.write, if_neg hzero, if_neg hmillis, if_neg hmicros]
    rw [hpoint, take_fixedDigits 6 3, hpower]

/-- What is left of a fraction denotes its microseconds. -/
theorem scanFraction_cutFraction {nano : Nat} (h : nano < 10 ^ 9) :
    scanFraction (cutFraction (FractionStyle.shortest.write nano ++ ['Z'])) =
      some (nano / 1000 * 1000, ['Z']) := by
  rw [cutFraction_shortest]
  split_ifs with hmicros
  · rw [Instant.scanFraction_shortest h, Nat.div_mul_cancel (Nat.dvd_of_mod_eq_zero hmicros)]
  · have hread : scanFraction ('.' :: fixedDigits 6 (nano / 1000 * 1000 / 1000) ++ ['Z']) =
        some (nano / 1000 * 1000, ['Z']) :=
      Instant.scanFraction_fixedDigits (by decide) (by decide) (by omega)
    rwa [Nat.mul_div_cancel _ (by decide)] at hread

theorem noDigitAhead_cutFraction (nano : Nat) :
    NoDigitAhead (cutFraction (FractionStyle.shortest.write nano ++ ['Z'])) := by
  rw [cutFraction_shortest]
  split_ifs
  · exact FractionStyle.shortest.noDigitAhead_write_append nano
  · simp [isDigit]

end Relational

namespace Instant

variable {t u : Instant}

/-! ## Rounding down -/

/-- The instant is a whole number of microseconds and not in a leap second. -/
structure IsWholeMicro (t : Instant) : Prop where
  nano_lt : t.nano < 1000000000
  nano_mod : t.nano % 1000 = 0

/-- The last whole number of microseconds up to an instant. -/
def floorMicro (t : Instant) : Instant :=
  { t with
    nano := t.nano / 1000 * 1000
    nano_lt := by have := t.nano_lt; omega
    leap := by intro h; exact t.leap (by omega) }

@[simp] theorem date_floorMicro (t : Instant) : t.floorMicro.date = t.date := rfl

@[simp] theorem second_floorMicro (t : Instant) : t.floorMicro.second = t.second := rfl

@[simp] theorem nano_floorMicro (t : Instant) : t.floorMicro.nano = t.nano / 1000 * 1000 := rfl

theorem isWholeMicro_floorMicro (h : t.nano < 1000000000) : t.floorMicro.IsWholeMicro where
  nano_lt := by
    rw [nano_floorMicro]
    omega
  nano_mod := by rw [nano_floorMicro, Nat.mul_mod_left]

theorem floorMicro_eq_self (h : t.IsWholeMicro) : t.floorMicro = t := by
  refine eq_of_parts rfl rfl ?_
  rw [nano_floorMicro, Nat.div_mul_cancel (Nat.dvd_of_mod_eq_zero h.nano_mod)]

theorem nanoOfSecond_floorMicro (t : Instant) :
    t.floorMicro.nanoOfSecond = t.nanoOfSecond / 1000 * 1000 := by
  simp only [nanoOfSecond, nano_floorMicro]
  omega

theorem writeSeconds_floorMicro (t : Instant) : t.floorMicro.writeSeconds = t.writeSeconds := by
  have hsecond : t.floorMicro.secondOfMinute = t.secondOfMinute := by
    simp only [secondOfMinute, second_floorMicro, nano_floorMicro]
    omega
  simp only [writeSeconds, hour, minute, date_floorMicro, second_floorMicro, hsecond]

/-! ## Texts that are cut -/

/-- There is no point in front of the fraction. -/
theorem cutFraction_write (t : Instant) :
    cutFraction (t.write .shortest) =
      t.writeSeconds ++ cutFraction (FractionStyle.shortest.write t.nanoOfSecond ++ ['Z']) := by
  rw [write_eq_writeSeconds_append, cutFraction_append t.point_not_mem_writeSeconds]

theorem cutFraction_write_of_isWholeMicro (h : t.IsWholeMicro) :
    cutFraction (t.write .shortest) = t.write .shortest := by
  have hmicro : t.nanoOfSecond % 1000 = 0 := by
    have hmod := h.nano_mod
    simp only [nanoOfSecond]
    omega
  rw [cutFraction_write, cutFraction_shortest, if_pos hmicro, write_eq_writeSeconds_append]

theorem scanFraction_cut (t : Instant) :
    scanFraction (cutFraction (FractionStyle.shortest.write t.nanoOfSecond ++ ['Z'])) =
      some (t.floorMicro.nanoOfSecond, ['Z']) := by
  rw [scanFraction_cutFraction t.nanoOfSecond_lt, nanoOfSecond_floorMicro]

/-- What is left of the text of an instant denotes the instant rounded down. -/
theorem readLoose?_cutFraction_write (t : Instant) :
    readLoose? (cutFraction (t.write .shortest)) = some t.floorMicro := by
  rw [cutFraction_write, ← writeSeconds_floorMicro]
  exact readLoose?_writeSeconds_append (noDigitAhead_cutFraction t.nanoOfSecond) t.scanFraction_cut

theorem readStrict?_cutFraction_write (h : IsFourDigitYear t.date.year) :
    readStrict? (cutFraction (t.write .shortest)) = some t.floorMicro := by
  rw [cutFraction_write, ← writeSeconds_floorMicro]
  exact readStrict?_writeSeconds_append (t := t.floorMicro) h t.scanFraction_cut

theorem readStrict?_cutFraction_write_of_signed (h : ¬ IsFourDigitYear t.date.year) :
    readStrict? (cutFraction (t.write .shortest)) = none := by
  rw [cutFraction_write, readStrict?, readFixed?, writeSeconds, List.append_assoc,
    List.append_assoc, List.append_assoc, Date.scanFixed_write_of_signed h]
  rfl

/-- The letter for UTC is not cut off. -/
theorem getLast?_cutFraction_write (t : Instant) :
    (cutFraction (t.write .shortest)).getLast? = some 'Z' := by
  rw [cutFraction_write, cutFraction_shortest]
  split_ifs
  all_goals
    rw [← List.append_assoc]
    exact List.getLast?_concat

/-! ## Microseconds -/

theorem nearestMicros_eq (h : t.IsWholeMicro) :
    nearestMicros t * 1000 = t.epochNanos - epochSeconds * 1000000000 := by
  have hmod := h.nano_mod
  simp only [nearestMicros, epochNanos, epochSeconds]
  omega

theorem cmp_nearestMicros (ht : t.IsWholeMicro) (hu : u.IsWholeMicro) :
    cmp (nearestMicros t) (nearestMicros u) = compare t u := by
  have hlt {t u : Instant} (ht : t.IsWholeMicro) (hu : u.IsWholeMicro) :
      nearestMicros t < nearestMicros u ↔ t.tick < u.tick := by
    have htmicros := nearestMicros_eq ht
    have humicros := nearestMicros_eq hu
    have htnano := ht.nano_lt
    have hunano := hu.nano_lt
    simp only [epochNanos] at htmicros humicros
    simp only [tick]
    omega
  rw [compare_eq_cmp_tick]
  exact cmp_eq_cmp_of_lt_iff (hlt ht hu) (hlt hu ht)

end Instant

end EntityQuery
