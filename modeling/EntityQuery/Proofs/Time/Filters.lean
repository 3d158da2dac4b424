import EntityQuery.Proofs.Entity.Fields
import EntityQuery.Proofs.Time.Acceptance
/-!
# Instants that filters ask for

A filter takes a text for an instant exactly if the text has the syntax of an accepted instant, and
asks for the start of the second that the clock shows. Fractions are dropped. Second 60 is dropped
with them, because it is kept in the nanoseconds, so a filter that names a leap second asks for
second 59. Apart from that, two texts ask for one instant exactly if they name one second.

Local times need not have the fixed widths of the other texts.
-/

namespace EntityQuery

open Text

/-! ## Accepted texts -/

/-- A text of fixed-width fields: a day in ten characters, a separator, and the hour, the minute and,
if it is written, the second of a clock in two digits each, with a fraction and a zone or without. -/
def IsFixedWidth (cs : List Char) : Prop :=
  ∃ w : WrittenInstant, w.text = cs ∧ w.IsPadded ∧ w.IsOnClock

namespace FieldValue

theorem ofRaw?_dateTime_eq_some_iff {raw : String} {v : FieldValue} :
    ofRaw? .dateTime raw = some v ↔
      ∃ w : WrittenInstant, w.text = raw.toList ∧ w.IsAccepted ∧
        ∃ t, w.instant? = some t ∧ v = .dateTime t.wholeSecond := by
  simp only [ofRaw?, Option.map_eq_some_iff, Instant.readFilter?_eq_some_iff]
  constructor
  · rintro ⟨_, ⟨w, htext, haccepted, t, ht, rfl⟩, rfl⟩
    exact ⟨w, htext, haccepted, t, ht, rfl⟩
  · rintro ⟨w, htext, haccepted, t, ht, rfl⟩
    exact ⟨_, ⟨w, htext, haccepted, t, ht, rfl⟩, rfl⟩

theorem isSome_ofRaw?_dateTime_iff {raw : String} :
    (ofRaw? .dateTime raw).isSome = true ↔
      ∃ w : WrittenInstant, w.text = raw.toList ∧ w.IsAccepted := by
  rw [Option.isSome_iff_exists]
  constructor
  · rintro ⟨v, hv⟩
    obtain ⟨w, htext, haccepted, -⟩ := ofRaw?_dateTime_eq_some_iff.1 hv
    exact ⟨w, htext, haccepted⟩
  · rintro ⟨w, htext, haccepted⟩
    obtain ⟨t, ht⟩ := w.exists_instant? haccepted.1
    exact ⟨_, ofRaw?_dateTime_eq_some_iff.2 ⟨w, htext, haccepted, t, ht, rfl⟩⟩

/-- The texts that are taken for instants are those of the accepted syntax, and they have fixed
widths exactly if the numbers are padded. -/
theorem taken_instants_iff (raw : String) :
    ((ofRaw? .dateTime raw).isSome = true ↔
      ∃ w : WrittenInstant, w.text = raw.toList ∧ w.IsAccepted) ∧
    ((ofRaw? .dateTime raw).isSome = true ∧ IsFixedWidth raw.toList ↔
      ∃ w : WrittenInstant, w.text = raw.toList ∧ w.IsAccepted ∧ w.IsPadded) := by
  refine ⟨isSome_ofRaw?_dateTime_iff, ?_⟩
  rw [isSome_ofRaw?_dateTime_iff]
  constructor
  · rintro ⟨⟨w, htext, haccepted⟩, w', htext', hpadded, -⟩
    obtain rfl : w = w' := WrittenInstant.text_injective (htext.trans htext'.symm)
    exact ⟨w, htext, haccepted, hpadded⟩
  · rintro ⟨w, htext, haccepted, hpadded⟩
    exact ⟨⟨w, htext, haccepted⟩, w, htext, hpadded, haccepted.1⟩

/-- A quarter past the given hour on 23 November 2010, and half a minute. -/
def quarterPast (hour : ClockNumber) : WrittenInstant where
  date := morning.date
  isFourDigitYear := ⟨by decide, by decide⟩
  separator := .capital
  hour
  minute := .padded 15 (by decide)
  second := some ⟨.padded 30 (by decide), [], by simp⟩
  zone := none

theorem not_isFixedWidth_quarterPast {hour : ClockNumber} (h : ¬ hour.IsPadded) :
    ¬ IsFixedWidth (quarterPast hour).text := by
  rintro ⟨w, htext, hpadded, -⟩
  rw [WrittenInstant.text_injective htext] at hpadded
  exact h hpadded.hour

/-- An hour of one digit, and one behind a blank, are taken. -/
theorem loose_instants_taken :
    ((ofRaw? .dateTime "2010-11-23T9:15:30").isSome = true ∧
      ¬ IsFixedWidth "2010-11-23T9:15:30".toList) ∧
    (ofRaw? .dateTime "2010-11-23T 09:15:30").isSome = true ∧
      ¬ IsFixedWidth "2010-11-23T 09:15:30".toList := by
  let short : ClockNumber := ⟨[], 1, 9, by simp, by decide, by decide, by decide⟩
  let spaced : ClockNumber := ⟨[' '], 2, 9, by simp [isBlank], by decide, by decide, by decide⟩
  have hshort : (quarterPast short).text = "2010-11-23T9:15:30".toList := by decide
  have hspaced : (quarterPast spaced).text = "2010-11-23T 09:15:30".toList := by decide
  rw [← hshort, ← hspaced]
  refine ⟨⟨by decide +kernel, ?_⟩, by decide +kernel, ?_⟩
  · exact not_isFixedWidth_quarterPast fun h => absurd h.2 (by decide)
  · exact not_isFixedWidth_quarterPast fun h => absurd h.1 (by decide)

end FieldValue

/-! ## The instants asked for -/

namespace WrittenInstant

variable {w : WrittenInstant}

/-- The minute in UTC that is written, counted from 1970-01-01. -/
def epochMinute (w : WrittenInstant) : Int :=
  w.date.epochDay * 1440 + 60 * w.hour.value + w.minute.value - w.minutesAhead

theorem minutesAhead_bounds (h : w.IsAccepted) :
    -1440 < w.minutesAhead ∧ w.minutesAhead < 1440 := by
  unfold minutesAhead
  obtain ⟨-, ⟨-, -, z, hzone, hrange⟩ | ⟨-, hzone, -⟩⟩ := h
  · rw [hzone]
    exact Zone.minutesAhead_bounds hrange
  · rw [hzone]
    decide

theorem isStartOf_of_instant? (h : w.IsAccepted) {t : Instant} (ht : w.instant? = some t) :
    t.wholeSecond.IsStartOf w.epochMinute (min w.secondValue 59) := by
  obtain ⟨u, hu, hbehind⟩ := Option.bind_eq_some_iff.1 ht
  obtain ⟨hdate, hclock⟩ := Instant.parts_of_ofCivil? hu
  obtain ⟨hminute, hsecond⟩ := Instant.minute_behind? hbehind (minutesAhead_bounds h)
  have hlocal : u.epochMinute = w.epochMinute + w.minutesAhead := by
    simp only [Instant.epochMinute, epochMinute, hdate, hclock]
    omega
  have hsame : t.epochMinute = w.epochMinute := by omega
  have hlast : t.second.val % 60 = min w.secondValue 59 := by omega
  rw [← hsame, ← hlast]
  exact Instant.isStartOf_wholeSecond t

end WrittenInstant

namespace FieldValue

/-- A filter asks for the start of the second that is written, unless it is second 60, for which it
asks for second 59. So two texts ask for one instant exactly if, once that is done, they name one
second of one minute in UTC. -/
theorem taken_instants_denote {raw raw' : String} {v v' : FieldValue}
    (h : ofRaw? .dateTime raw = some v) (h' : ofRaw? .dateTime raw' = some v') :
    ∃ w w' : WrittenInstant, w.text = raw.toList ∧ w'.text = raw'.toList ∧
      (∃ t, v = .dateTime t ∧ t.IsStartOf w.epochMinute (min w.secondValue 59) ∧
        (t.IsStartOf w.epochMinute w.secondValue ↔ w.secondValue ≠ 60)) ∧
      (v = v' ↔ w.epochMinute = w'.epochMinute ∧
        min w.secondValue 59 = min w'.secondValue 59) := by
  obtain ⟨w, htext, haccepted, t, ht, rfl⟩ := ofRaw?_dateTime_eq_some_iff.1 h
  obtain ⟨w', htext', haccepted', t', ht', rfl⟩ := ofRaw?_dateTime_eq_some_iff.1 h'
  have hstart := WrittenInstant.isStartOf_of_instant? haccepted ht
  have hstart' := WrittenInstant.isStartOf_of_instant? haccepted' ht'
  have hsecond := haccepted.1.second_le
  refine ⟨w, w', htext, htext', ⟨t.wholeSecond, rfl, hstart, ?_⟩, ?_⟩
  · rw [hstart.iff]
    omega
  · rw [dateTime.injEq, ← hstart.iff]
    constructor
    · intro heq
      rw [heq]
      exact hstart'
    · exact fun hsame => hsame.unique hstart'

/-- A text with an offset and a fraction and one in UTC that ask for one instant. -/
theorem taken_instants_denote_morning :
    ∃ w w' : WrittenInstant, w.text = "2010-11-23T12:15:30.987+02:00".toList ∧
      w'.text = "2010-11-23T10:15:30Z".toList ∧ w.secondValue ≠ 60 ∧
      morning.IsStartOf w.epochMinute w.secondValue ∧ w.epochMinute = w'.epochMinute := by
  have hoffset : ofRaw? .dateTime "2010-11-23T12:15:30.987+02:00" = some (.dateTime morning) := by
    decide +kernel
  have hutc : ofRaw? .dateTime "2010-11-23T10:15:30Z" = some (.dateTime morning) := by
    decide +kernel
  obtain ⟨w, w', htext, htext', ⟨t, heq, hstart, hexact⟩, hsame⟩ :=
    taken_instants_denote hoffset hutc
  cases heq
  have hshown : morning.secondOfMinute = 30 := by decide
  have hsecond : w.secondValue ≠ 60 := by
    have hclock := hstart.secondOfMinute
    omega
  exact ⟨w, w', htext, htext', hsecond, hexact.2 hsecond, (hsame.1 rfl).1⟩

/-- The last second of the year 2016, written as the given second of its minute. -/
def yearsEnd (second : Nat) (h : second < 10 ^ 2) : WrittenInstant where
  date := ⟨2016, 12, 31, by decide⟩
  isFourDigitYear := ⟨by decide, by decide⟩
  separator := .capital
  hour := .padded 23 (by decide)
  minute := .padded 59 (by decide)
  second := some ⟨.padded second h, [], by simp⟩
  zone := some .capital

/-- A leap second and the second before it are different seconds of one minute, and a filter asks
for the same instant by both. -/
theorem leap_second_dropped :
    (yearsEnd 60 (by decide)).text = "2016-12-31T23:59:60Z".toList ∧
      (yearsEnd 59 (by decide)).text = "2016-12-31T23:59:59Z".toList ∧
      (yearsEnd 60 (by decide)).secondValue ≠ (yearsEnd 59 (by decide)).secondValue ∧
      ∃ v, ofRaw? .dateTime "2016-12-31T23:59:60Z" = some v ∧
        ofRaw? .dateTime "2016-12-31T23:59:59Z" = some v := by
  refine ⟨by decide, by decide, by decide, ?_⟩
  refine ⟨.dateTime ⟨⟨2016, 12, 31, by decide⟩, ⟨86399, by decide⟩, 0, by decide, by decide⟩, ?_, ?_⟩
  · decide +kernel
  · decide +kernel

end FieldValue

end EntityQuery
