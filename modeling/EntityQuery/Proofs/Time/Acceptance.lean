import EntityQuery.Coercion
import EntityQuery.Proofs.Time.Syntax
/-!
# Which instants a filter may write

The readers of filters take exactly the written instants with the numbers of a clock that are
either of fixed widths, with a second and a zone, or of local time, without a zone. Local times may
have one digit for two and blanks in front of a number, so not every accepted text has the
fixed-width form; it has it exactly if its numbers are padded.
-/

namespace EntityQuery

open Text

/-! ## The parts of a strict text -/

namespace Date

theorem scanFixed_eq_some_iff {cs rest : List Char} {d : Date} :
    scanFixed cs = some (d, rest) ↔ IsFourDigitYear d.year ∧ cs = d.write ++ rest := by
  constructor
  · intro h
    have hyear := isFourDigitYear_of_scanFixed h
    simp only [scanFixed, Option.bind_eq_bind, Option.bind_eq_some_iff, Prod.exists,
      Text.scanFixed_eq_some_iff, scanChar_eq_some_iff] at h
    obtain ⟨year, _, ⟨-, rfl⟩, _, rfl, month, _, ⟨-, rfl⟩, _, rfl, day, _, ⟨-, rfl⟩, date, hdate,
      hpair⟩ := h
    cases hpair
    obtain ⟨hyears, rfl, rfl⟩ := of_ofCivil? hdate
    refine ⟨hyear, ?_⟩
    rw [write, writeYear_eq hyear, hyears, Int.toNat_natCast]
    simp
  · rintro ⟨hyear, rfl⟩
    exact scanFixed_write_append hyear rest

theorem readFixed?_eq_some_iff {cs : List Char} {d : Date} :
    readFixed? cs = some d ↔ IsFourDigitYear d.year ∧ cs = d.write := by
  simp only [readFixed?, Option.bind_eq_bind, Option.bind_eq_some_iff, Prod.exists,
    scanFixed_eq_some_iff, Option.ite_none_right_eq_some, List.isEmpty_iff, Option.some.injEq]
  constructor
  · rintro ⟨_, _, ⟨hyear, rfl⟩, rfl, rfl⟩
    exact ⟨hyear, List.append_nil _⟩
  · rintro ⟨hyear, rfl⟩
    exact ⟨d, [], ⟨hyear, (List.append_nil _).symm⟩, rfl, rfl⟩

end Date

theorem Instant.scanSeparator_eq_some_iff {cs rest : List Char} :
    scanSeparator cs = some rest ↔ ∃ s : DateSeparator, cs = s.char :: rest := by
  constructor
  · intro h
    unfold scanSeparator at h
    split at h <;> cases h
    · exact ⟨.capital, rfl⟩
    · exact ⟨.small, rfl⟩
    · exact ⟨.blank, rfl⟩
  · rintro ⟨s, rfl⟩
    cases s <;> rfl

theorem scanOffsetSign_eq_some_iff {cs rest : List Char} {negative : Bool} :
    scanOffsetSign cs = some (negative, rest) ↔
      ∃ s : OffsetSign, cs = s.char :: rest ∧ ∀ n, (if negative then -n else n) = s.apply n := by
  constructor
  · intro h
    unfold scanOffsetSign at h
    split at h <;> cases h
    · exact ⟨.plus, rfl, fun _ => rfl⟩
    · exact ⟨.hyphen, rfl, fun _ => rfl⟩
    · exact ⟨.minus, rfl, fun _ => rfl⟩
  · rintro ⟨s, rfl, happly⟩
    have hone := happly 1
    cases s <;> cases negative <;> first | rfl | exact absurd hone (by decide)

/-- Exactly the zones in range are read. -/
theorem scanOffset_eq_some_iff {cs rest : List Char} {minutes : Int} :
    scanOffset (scanChar ':') cs = some (minutes, rest) ↔
      ∃ z : Zone, z.IsInRange ∧ z.minutesAhead = minutes ∧ cs = z.text ++ rest := by
  constructor
  · intro h
    unfold scanOffset at h
    split at h
    · cases h
      exact ⟨.capital, trivial, rfl, rfl⟩
    · cases h
      exact ⟨.small, trivial, rfl, rfl⟩
    · simp only [scanNumericOffset, Option.bind_eq_bind, Option.bind_eq_some_iff, Prod.exists,
        scanOffsetSign_eq_some_iff, scanFixed_eq_some_iff, scanChar_eq_some_iff,
        Option.ite_none_right_eq_some, Option.some.injEq, Prod.mk.injEq] at h
      obtain ⟨negative, _, ⟨sign, rfl, happly⟩, hours, _, ⟨hhours, rfl⟩, _, rfl, ahead, _,
        ⟨hminutes, rfl⟩, ⟨hminute, hhour⟩, hvalue, rfl⟩ := h
      refine ⟨.offset sign hours ahead hhours hminutes, ⟨hhour, hminute⟩, ?_, ?_⟩
      · rw [← hvalue, happly]
        rfl
      · simp [Zone.text]
  · rintro ⟨z, hrange, rfl, rfl⟩
    cases z with
    | capital | small => rfl
    | offset sign hours ahead hhours hminutes =>
        have hnumeric : scanOffset (scanChar ':') (Zone.text (.offset sign hours ahead hhours
            hminutes) ++ rest) = scanNumericOffset (scanChar ':') (Zone.text (.offset sign hours
              ahead hhours hminutes) ++ rest) := by
          cases sign <;> rfl
        obtain ⟨hhour, hminute⟩ := hrange
        rw [hnumeric]
        simp only [scanNumericOffset, Option.bind_eq_bind, Option.bind_eq_some_iff, Prod.exists,
          scanOffsetSign_eq_some_iff, scanFixed_eq_some_iff, scanChar_eq_some_iff,
          Option.ite_none_right_eq_some, Option.some.injEq, Prod.mk.injEq]
        obtain ⟨negative, happly⟩ : ∃ negative : Bool,
            ∀ n : Int, (if negative then -n else n) = sign.apply n := by
          cases sign
          · exact ⟨false, fun _ => rfl⟩
          · exact ⟨true, fun _ => rfl⟩
          · exact ⟨true, fun _ => rfl⟩
        refine ⟨negative, _, ⟨sign, rfl, happly⟩, hours, _, ⟨hhours, ?_⟩, _, rfl, ahead, _,
          ⟨hminutes, rfl⟩, ⟨hminute, hhour⟩, happly _, rfl⟩
        simp

namespace WrittenInstant

/-! ## Written instants on a clock -/

/-- The second, which is 0 if it is not written. -/
def secondValue (w : WrittenInstant) : Nat :=
  match w.second with
  | none => 0
  | some s => s.number.value

def nanos (w : WrittenInstant) : Nat :=
  match w.second with
  | none => 0
  | some s => fractionNanos s.fraction

/-- How many minutes the clock is ahead of UTC; without a zone it is a clock of UTC. -/
def minutesAhead (w : WrittenInstant) : Int :=
  match w.zone with
  | none => 0
  | some z => z.minutesAhead

/-- Hour, minute and second are those of a clock, which may show second 60. -/
structure IsOnClock (w : WrittenInstant) : Prop where
  hour_lt : w.hour.value < 24
  minute_lt : w.minute.value < 60
  second_le : w.secondValue ≤ 60

/-- All numbers have two digits and no blanks in front of them. -/
structure IsPadded (w : WrittenInstant) : Prop where
  hour : w.hour.IsPadded
  minute : w.minute.IsPadded
  second : ∀ s ∈ w.second, s.number.IsPadded

/-- Nothing is left out, and the numbers are padded. -/
structure IsStrict (w : WrittenInstant) : Prop where
  isPadded : w.IsPadded
  second : w.second.isSome = true
  zone : ∃ z, w.zone = some z ∧ z.IsInRange

/-- A local time: there is no zone. The text must not be too short. -/
structure IsLocal (w : WrittenInstant) : Prop where
  separator : w.separator = .capital
  zone : w.zone = none
  le_byteLength : 16 ≤ Instant.byteLength w.text

/-- What a filter may write. -/
def IsAccepted (w : WrittenInstant) : Prop :=
  w.IsOnClock ∧ (w.IsStrict ∨ w.IsLocal)

/-- The instant at which the clock shows what is written. -/
def instant? (w : WrittenInstant) : Option Instant :=
  (Instant.ofCivil? w.date w.hour.value w.minute.value w.secondValue w.nanos).bind
    (Instant.behind? w.minutesAhead)

variable {w : WrittenInstant}

theorem nanos_lt (w : WrittenInstant) : w.nanos < 1000000000 := by
  unfold nanos
  split
  · decide
  · next s _ => exact fractionNanos_lt s.isDigit

theorem isOnClock_of_instant? {t : Instant} (h : w.instant? = some t) : w.IsOnClock := by
  obtain ⟨u, hcivil, -⟩ := Option.bind_eq_some_iff.1 h
  rw [Instant.ofCivil?, Option.dite_none_right_eq_some] at hcivil
  obtain ⟨⟨hhour, hminute, hsecond, -⟩, -⟩ := hcivil
  exact ⟨hhour, hminute, hsecond⟩

theorem exists_instant? (h : w.IsOnClock) : ∃ t, w.instant? = some t := by
  have hcivil : ∃ u, Instant.ofCivil? w.date w.hour.value w.minute.value w.secondValue w.nanos =
      some u := ⟨_, dif_pos ⟨h.hour_lt, h.minute_lt, h.second_le, w.nanos_lt⟩⟩
  obtain ⟨u, hu⟩ := hcivil
  have hyear : IsFourDigitYear u.date.year := by
    rw [(Instant.parts_of_ofCivil? hu).1]
    exact w.isFourDigitYear
  obtain ⟨t, ht⟩ := Instant.exists_behind? hyear w.minutesAhead
  refine ⟨t, ?_⟩
  rw [instant?, hu]
  exact ht

end WrittenInstant

/-! ## The three readers -/

namespace Instant

open WrittenInstant

theorem readStrict?_eq_some_iff {cs : List Char} {t : Instant} :
    readStrict? cs = some t ↔
      ∃ w : WrittenInstant, w.text = cs ∧ w.IsStrict ∧ w.instant? = some t := by
  simp only [readStrict?, readFixed?, Option.bind_eq_bind, Option.bind_eq_some_iff, Prod.exists,
    Date.scanFixed_eq_some_iff, scanSeparator_eq_some_iff, Text.scanFixed_eq_some_iff,
    scanChar_eq_some_iff, scanOffset_eq_some_iff, Option.ite_none_right_eq_some, List.isEmpty_iff]
  constructor
  · rintro ⟨date, _, ⟨hyear, rfl⟩, _, ⟨separator, rfl⟩, hour, _, ⟨hhour, rfl⟩, _, rfl, minute, _,
      ⟨hminute, rfl⟩, _, rfl, second, _, ⟨hsecond, rfl⟩, nano, _, hfraction, offset, _,
      ⟨zone, hrange, rfl, rfl⟩, rfl, u, hu, ht⟩
    obtain ⟨digits, hdigits, rfl, rfl⟩ := exists_of_scanFraction hfraction
    refine ⟨⟨date, hyear, separator, .padded hour hhour, .padded minute hminute,
      some ⟨.padded second hsecond, digits, hdigits⟩, some zone⟩, ?_, ⟨⟨?_, ?_, ?_⟩, rfl, ?_⟩, ?_⟩
    · simp [text, clockText, secondText, zoneText, ClockNumber.text, ClockNumber.padded]
    · exact ClockNumber.isPadded_padded hour hhour
    · exact ClockNumber.isPadded_padded minute hminute
    · rintro s hs
      cases hs
      exact ClockNumber.isPadded_padded second hsecond
    · exact ⟨zone, rfl, hrange⟩
    · exact Option.bind_eq_some_iff.2 ⟨u, hu, ht⟩
  · rintro ⟨⟨date, hyear, separator, hour, minute, second, zone⟩, rfl, ⟨⟨hhour, hminute, hsecond⟩,
      hsome, z, rfl, hrange⟩, ht⟩
    obtain ⟨⟨number, digits, hdigits⟩, rfl⟩ := Option.isSome_iff_exists.1 hsome
    have hnumber : number.IsPadded := hsecond _ rfl
    obtain ⟨hzone, hpoint, -⟩ := head_zoneText (some z)
    obtain ⟨u, hu, hbehind⟩ := Option.bind_eq_some_iff.1 ht
    refine ⟨date, _, ⟨hyear, rfl⟩, _, ⟨separator, rfl⟩, hour.value, _,
      ⟨ClockNumber.value_lt_of_isPadded hhour, by rw [ClockNumber.text_of_isPadded hhour]⟩, _, rfl,
      minute.value, _,
      ⟨ClockNumber.value_lt_of_isPadded hminute, by rw [ClockNumber.text_of_isPadded hminute]; rfl⟩,
      _, rfl, number.value, fractionText digits ++ z.text,
      ⟨ClockNumber.value_lt_of_isPadded hnumber, ?_⟩, fractionNanos digits, z.text, ?_,
      z.minutesAhead, [], ⟨z, hrange, rfl, (List.append_nil _).symm⟩, rfl, u, hu, hbehind⟩
    · rw [← ClockNumber.text_of_isPadded hnumber]
      exact List.append_assoc ..
    · exact scanFraction_fractionText_append hdigits hzone hpoint

theorem readLocalSeconds?_eq_some_iff {date : Date} (hyear : IsFourDigitYear date.year)
    {cs : List Char} {t : Instant} :
    readLocalSeconds? date cs = some t ↔
      ∃ w : WrittenInstant, w.date = date ∧ w.clockText = cs ∧ w.separator = .capital ∧
        w.zone = none ∧ w.second.isSome = true ∧ w.instant? = some t := by
  have hcolon (cs : List Char) : NoDigitAhead (':' :: cs) := by simp [isDigit]
  constructor
  · intro h
    simp only [readLocalSeconds?, Option.bind_eq_bind, Option.bind_eq_some_iff, Prod.exists,
      scanChar_eq_some_iff, Option.ite_none_right_eq_some, List.isEmpty_iff] at h
    obtain ⟨_, rfl, _, _, hhour, _, rfl, _, _, hminute, _, rfl, _, _, hsecond, _, _, hfraction,
      rfl, hcivil⟩ := h
    obtain ⟨hour, rfl, rfl⟩ := ClockNumber.exists_of_scan hhour
    obtain ⟨minute, rfl, rfl⟩ := ClockNumber.exists_of_scan hminute
    obtain ⟨second, rfl, rfl⟩ := ClockNumber.exists_of_scan hsecond
    obtain ⟨digits, hdigits, rfl, rfl⟩ := exists_of_scanFraction hfraction
    refine ⟨⟨date, hyear, .capital, hour, minute, some ⟨second, digits, hdigits⟩, none⟩, rfl, ?_,
      rfl, rfl, rfl, ?_⟩
    · simp [clockText, secondText, zoneText, DateSeparator.char]
    · exact Option.bind_eq_some_iff.2 ⟨t, hcivil, behind?_zero t⟩
  · rintro ⟨⟨_, _, separator, hour, minute, second, zone⟩, rfl, rfl, rfl, rfl, hsome, ht⟩
    obtain ⟨⟨number, digits, hdigits⟩, rfl⟩ := Option.isSome_iff_exists.1 hsome
    obtain ⟨u, hu, hbehind⟩ := Option.bind_eq_some_iff.1 ht
    obtain rfl : u = t := Option.some.inj ((behind?_zero u).symm.trans hbehind)
    have hpoint : NoPointAhead [] := by simp [NoPointAhead]
    have hfraction := scanFraction_fractionText_append hdigits noDigitAhead_nil hpoint
    have hahead : NoDigitAhead (fractionText digits ++ []) :=
      noDigitAhead_fractionText_append noDigitAhead_nil
    have hnumber := ClockNumber.scan_text (k := number) hahead
    simp only [readLocalSeconds?, clockText, secondText, zoneText, DateSeparator.char,
      scanChar_cons_self, ClockNumber.scan_text (hcolon _), List.cons_append, List.append_assoc,
      hnumber, hfraction, Option.bind_eq_bind, Option.bind_some, List.isEmpty_nil, if_true]
    exact hu

theorem readLocalMinutes?_eq_some_iff {date : Date} (hyear : IsFourDigitYear date.year)
    {cs : List Char} {t : Instant} :
    readLocalMinutes? date cs = some t ↔
      ∃ w : WrittenInstant, w.date = date ∧ w.clockText = cs ∧ w.separator = .capital ∧
        w.zone = none ∧ w.second = none ∧ w.instant? = some t := by
  have hcolon (cs : List Char) : NoDigitAhead (':' :: cs) := by simp [isDigit]
  constructor
  · intro h
    simp only [readLocalMinutes?, Option.bind_eq_bind, Option.bind_eq_some_iff, Prod.exists,
      scanChar_eq_some_iff, Option.ite_none_right_eq_some, List.isEmpty_iff] at h
    obtain ⟨_, rfl, _, _, hhour, _, rfl, _, _, hminute, rfl, hcivil⟩ := h
    obtain ⟨hour, rfl, rfl⟩ := ClockNumber.exists_of_scan hhour
    obtain ⟨minute, rfl, rfl⟩ := ClockNumber.exists_of_scan hminute
    refine ⟨⟨date, hyear, .capital, hour, minute, none, none⟩, rfl, ?_, rfl, rfl, rfl, ?_⟩
    · simp [clockText, secondText, zoneText, DateSeparator.char]
    · exact Option.bind_eq_some_iff.2 ⟨t, hcivil, behind?_zero t⟩
  · rintro ⟨⟨_, _, separator, hour, minute, second, zone⟩, rfl, rfl, rfl, rfl, rfl, ht⟩
    obtain ⟨u, hu, hbehind⟩ := Option.bind_eq_some_iff.1 ht
    obtain rfl : u = t := Option.some.inj ((behind?_zero u).symm.trans hbehind)
    have hminute := ClockNumber.scan_text (k := minute) noDigitAhead_nil
    simp only [readLocalMinutes?, clockText, secondText, zoneText, DateSeparator.char,
      scanChar_cons_self, ClockNumber.scan_text (hcolon _), List.append_nil,
      Option.bind_eq_bind, Option.bind_some]
    rw [List.append_nil] at hminute
    rw [hminute]
    exact hu

/-! ## Filters -/

theorem length_le_byteLength (cs : List Char) : cs.length ≤ byteLength cs := by
  induction cs with
  | nil => exact le_rfl
  | cons c rest ih =>
      have hsize := c.utf8Size_pos
      simp only [List.length_cons, byteLength]
      omega

theorem le_byteLength_of_isStrict {w : WrittenInstant} (h : w.IsStrict) :
    16 ≤ byteLength w.text := by
  obtain ⟨⟨hhour, hminute, hnumber⟩, hsome, -⟩ := h
  obtain ⟨s, hsecond⟩ := Option.isSome_iff_exists.1 hsome
  have hlength := length_le_byteLength w.text
  simp only [text, clockText, hsecond, secondText, ClockNumber.text_of_isPadded hhour,
    ClockNumber.text_of_isPadded hminute, ClockNumber.text_of_isPadded (hnumber s hsecond),
    List.length_append, List.length_cons, Date.length_write w.isFourDigitYear,
    length_fixedDigits] at hlength ⊢
  omega

/-- What any of the three readers takes is an accepted text. -/
theorem exists_isAccepted_of_read {date : Date} (hyear : IsFourDigitYear date.year)
    {rest : List Char} {t : Instant} (hsize : 16 ≤ byteLength (date.write ++ rest))
    (h : (readStrict? (date.write ++ rest) <|> readLocalSeconds? date rest <|>
      readLocalMinutes? date rest) = some t) :
    ∃ w : WrittenInstant, w.text = date.write ++ rest ∧ w.IsAccepted ∧ w.instant? = some t := by
  have hlocal {w : WrittenInstant} (hw : w.date = date) (hclock : w.clockText = rest)
      (hseparator : w.separator = .capital) (hzone : w.zone = none) (ht : w.instant? = some t) :
      ∃ w : WrittenInstant, w.text = date.write ++ rest ∧ w.IsAccepted ∧ w.instant? = some t := by
    have htext : w.text = date.write ++ rest := by rw [text, hw, hclock]
    exact ⟨w, htext, ⟨isOnClock_of_instant? ht, .inr ⟨hseparator, hzone, htext ▸ hsize⟩⟩, ht⟩
  cases hstrict : readStrict? (date.write ++ rest) with
  | some u =>
      rw [hstrict] at h
      cases h
      obtain ⟨w, htext, hw, ht⟩ := readStrict?_eq_some_iff.1 hstrict
      exact ⟨w, htext, ⟨isOnClock_of_instant? ht, .inl hw⟩, ht⟩
  | none =>
      cases hseconds : readLocalSeconds? date rest with
      | some u =>
          rw [hstrict, hseconds] at h
          cases h
          obtain ⟨w, hw, hclock, hseparator, hzone, -, ht⟩ :=
            (readLocalSeconds?_eq_some_iff hyear).1 hseconds
          exact hlocal hw hclock hseparator hzone ht
      | none =>
          rw [hstrict, hseconds] at h
          obtain ⟨w, hw, hclock, hseparator, hzone, -, ht⟩ :=
            (readLocalMinutes?_eq_some_iff hyear).1 h
          exact hlocal hw hclock hseparator hzone ht

/-! A text has one syntax only, so two readers do not take the texts of the third. -/

theorem readStrict?_of_zone_eq_none {w : WrittenInstant} (h : w.zone = none) :
    readStrict? w.text = none := by
  rw [Option.eq_none_iff_forall_not_mem]
  intro t ht
  obtain ⟨w', htext, hstrict, -⟩ := readStrict?_eq_some_iff.1 ht
  obtain ⟨z, hz, -⟩ := hstrict.zone
  rw [text_injective htext, h] at hz
  cases hz

theorem readLocalSeconds?_of_second_eq_none {w : WrittenInstant} (h : w.second = none) :
    readLocalSeconds? w.date w.clockText = none := by
  rw [Option.eq_none_iff_forall_not_mem]
  intro t ht
  obtain ⟨w', hw, hclock, -, -, hsome, -⟩ :=
    (readLocalSeconds?_eq_some_iff w.isFourDigitYear).1 ht
  have htext : w'.text = w.text := by rw [text, text, hw, hclock]
  rw [text_injective htext, h] at hsome
  cases hsome

theorem read_of_isAccepted {w : WrittenInstant} {t : Instant} (h : w.IsAccepted)
    (ht : w.instant? = some t) :
    (readStrict? w.text <|> readLocalSeconds? w.date w.clockText <|>
      readLocalMinutes? w.date w.clockText) = some t := by
  obtain ⟨-, hstrict | ⟨hseparator, hzone, -⟩⟩ := h
  · rw [readStrict?_eq_some_iff.2 ⟨w, rfl, hstrict, ht⟩]
    rfl
  · rw [readStrict?_of_zone_eq_none hzone]
    cases hsecond : w.second with
    | some s =>
        rw [(readLocalSeconds?_eq_some_iff w.isFourDigitYear).2
          ⟨w, rfl, rfl, hseparator, hzone, by rw [hsecond]; rfl, ht⟩]
        rfl
    | none =>
        rw [readLocalSeconds?_of_second_eq_none hsecond]
        exact (readLocalMinutes?_eq_some_iff w.isFourDigitYear).2
          ⟨w, rfl, rfl, hseparator, hzone, hsecond, ht⟩

/-- Of the accepted texts a filter takes the second, and no others. -/
theorem readFilter?_eq_some_iff {cs : List Char} {t : Instant} :
    readFilter? cs = some t ↔
      ∃ w : WrittenInstant, w.text = cs ∧ w.IsAccepted ∧ w.instant?.map wholeSecond = some t := by
  simp only [Option.map_eq_some_iff]
  constructor
  · intro h
    simp only [readFilter?, Option.bind_eq_bind, Option.ite_none_left_eq_some,
      Option.bind_eq_some_iff, Option.some.injEq, Date.readFixed?_eq_some_iff] at h
    obtain ⟨hsize, date, ⟨hyear, hdate⟩, u, hu, hwhole⟩ := h
    have hcs : date.write ++ cs.drop 10 = cs := by rw [← hdate, List.take_append_drop]
    rw [← hcs, List.drop_left' (Date.length_write hyear)] at hu
    obtain ⟨w, htext, haccepted, ht⟩ :=
      exists_isAccepted_of_read hyear (by rw [hcs]; omega) hu
    exact ⟨w, htext.trans hcs, haccepted, u, ht, hwhole⟩
  · rintro ⟨w, rfl, haccepted, u, ht, rfl⟩
    have hlength := Date.length_write w.isFourDigitYear
    have hdate : Date.readFixed? (w.text.take 10) = some w.date := by
      rw [text, List.take_left' hlength]
      exact Date.readFixed?_eq_some_iff.2 ⟨w.isFourDigitYear, rfl⟩
    have hdrop : w.text.drop 10 = w.clockText := by rw [text, List.drop_left' hlength]
    have hsize : 16 ≤ byteLength w.text :=
      haccepted.2.elim le_byteLength_of_isStrict IsLocal.le_byteLength
    rw [readFilter?, if_neg (by omega), hdate, hdrop]
    simp only [Option.bind_eq_bind, Option.bind_some, read_of_isAccepted haccepted ht]

theorem readFilter?_write {t : Instant} (h : IsFourDigitYear t.date.year) :
    readFilter? (t.write .shortest) = some t.wholeSecond := by
  obtain ⟨w, htext, hstrict, ht⟩ := readStrict?_eq_some_iff.1 (readStrict?_write h)
  refine readFilter?_eq_some_iff.2 ⟨w, htext, ⟨isOnClock_of_instant? ht, .inl hstrict⟩, ?_⟩
  rw [ht, Option.map_some]

end Instant

end EntityQuery
