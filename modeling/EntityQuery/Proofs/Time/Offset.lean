import EntityQuery.Proofs.Time.Writing
/-!
# Offsets from UTC

The day that follows has the number that follows, whatever month or year ends in between, and
the day before has the number before. So an offset of less than a day moves an instant by its
minutes and leaves the second alone. The minutes from 1970-01-01 and the second within the minute
determine an instant of a whole second, second 60 of a leap second included.
-/

namespace EntityQuery

theorem one_le_daysInMonth (year : Int) (month : Nat) : 1 ≤ daysInMonth year month := by
  simp only [daysInMonth]
  split_ifs <;> omega

/-! ## Days -/

namespace Date

theorem epochDay_of_ofCivil? {year : Int} {month day : Nat} {d : Date}
    (h : ofCivil? year month day = some d) :
    d.epochDay = yearStart year + monthStart year month + day - 1 := by
  obtain ⟨hyear, hmonth, hday⟩ := of_ofCivil? h
  rw [epochDay, hyear, hmonth, hday]

theorem yearStart_add_december (year : Int) :
    yearStart year + monthStart year 12 + 31 = yearStart (year + 1) := by
  have hfill := monthStart_thirteen year
  have hlast : monthStart year 13 = monthStart year 12 + daysInMonth year 12 := rfl
  have hdays : daysInMonth year 12 = 31 := rfl
  rw [hlast, hdays] at hfill
  rw [yearStart_succ]
  split_ifs at hfill ⊢ <;> omega

/-- The following day has the following number. -/
theorem epochDay_next? {d d' : Date} (h : d.next? = some d') : d'.epochDay = d.epochDay + 1 := by
  obtain ⟨-, ⟨hfirst, hlast⟩, -, hday⟩ := d.valid
  rw [next?] at h
  split_ifs at h with hinside hmonth
  · rw [epochDay_of_ofCivil? h, epochDay]
    omega
  · have hstart := monthStart_succ d.year hfirst
    rw [epochDay_of_ofCivil? h, epochDay, hstart]
    omega
  · have hdecember : d.month = 12 := by omega
    have hdays : daysInMonth d.year 12 = 31 := rfl
    have hend := yearStart_add_december d.year
    have hjanuary : monthStart (d.year + 1) 1 = 0 := rfl
    rw [hdecember] at hinside hday
    rw [epochDay_of_ofCivil? h, epochDay, hdecember, hjanuary]
    omega

example : epochDay ⟨1970, 1, 1, by decide⟩ = 0 := by decide

/-- The preceding day has the preceding number. -/
theorem epochDay_prev? {d d' : Date} (h : d.prev? = some d') : d'.epochDay = d.epochDay - 1 := by
  obtain ⟨-, ⟨hfirst, -⟩, hday, -⟩ := d.valid
  rw [prev?] at h
  split_ifs at h with hinside hmonth
  · rw [epochDay_of_ofCivil? h, epochDay]
    omega
  · have hprevious : 1 ≤ d.month - 1 := by omega
    have hstart := monthStart_succ d.year hprevious
    rw [Nat.sub_add_cancel hfirst] at hstart
    rw [epochDay_of_ofCivil? h, epochDay, hstart]
    omega
  · have hjanuary : d.month = 1 := by omega
    have hstart : monthStart d.year 1 = 0 := rfl
    have hend := yearStart_add_december (d.year - 1)
    rw [Int.sub_add_cancel] at hend
    rw [epochDay_of_ofCivil? h, epochDay, hjanuary, hstart]
    omega

theorem exists_next? {d : Date} (h : d.year < lastYear) : ∃ d', d.next? = some d' := by
  obtain ⟨⟨hyear, hyear'⟩, ⟨hfirst, hlast⟩, hday, hday'⟩ := d.valid
  rw [next?]
  split_ifs with hinside hmonth
  · exact ⟨_, dif_pos ⟨⟨hyear, hyear'⟩, ⟨hfirst, hlast⟩, by omega, hinside⟩⟩
  · exact ⟨_, dif_pos ⟨⟨hyear, hyear'⟩, by omega, le_rfl, one_le_daysInMonth _ _⟩⟩
  · exact ⟨_, dif_pos ⟨by omega, by omega, le_rfl, one_le_daysInMonth _ _⟩⟩

theorem exists_prev? {d : Date} (h : firstYear < d.year) : ∃ d', d.prev? = some d' := by
  obtain ⟨⟨hyear, hyear'⟩, ⟨hfirst, hlast⟩, hday, hday'⟩ := d.valid
  rw [prev?]
  split_ifs with hinside hmonth
  · exact ⟨_, dif_pos ⟨⟨hyear, hyear'⟩, ⟨hfirst, hlast⟩, by omega, by omega⟩⟩
  · exact ⟨_, dif_pos ⟨⟨hyear, hyear'⟩, by omega, one_le_daysInMonth _ _, le_rfl⟩⟩
  · exact ⟨_, dif_pos ⟨by omega, by omega, by omega, le_rfl⟩⟩

/-- Different days have different numbers. -/
theorem epochDay_injective : Function.Injective epochDay := by
  intro a b h
  rw [← compare_eq_eq_iff, compare_eq_cmp_epochDay, h, cmp_self_eq_eq]

end Date

/-! ## Instants -/

namespace Instant

/-- Whole minutes from 1970-01-01. -/
def epochMinute (t : Instant) : Int :=
  t.date.epochDay * 1440 + (t.second.val / 60 : Nat)

/-- The instant is the start of a second of a minute, the minute being counted from 1970-01-01:
its day, hour and minute in UTC are those of the minute. -/
structure IsStartOf (minute : Int) (second : Nat) (t : Instant) : Prop where
  epochDay : t.date.epochDay = minute / 1440
  hour : (t.hour : Int) = minute % 1440 / 60
  minute : (t.minute : Int) = minute % 60
  secondOfMinute : t.secondOfMinute = second
  nanoOfSecond : t.nanoOfSecond = 0

theorem isStartOf_iff {minute : Int} {second : Nat} {t : Instant} :
    t.IsStartOf minute second ↔
      t.epochMinute = minute ∧ t.secondOfMinute = second ∧ t.nanoOfSecond = 0 := by
  have hsecond := t.second.isLt
  constructor
  · rintro ⟨hday, hhour, hminute, hsecond, hnano⟩
    refine ⟨?_, hsecond, hnano⟩
    simp only [epochMinute, Instant.hour, Instant.minute] at hhour hminute ⊢
    omega
  · rintro ⟨rfl, hsecond, hnano⟩
    refine ⟨?_, ?_, ?_, hsecond, hnano⟩ <;>
      simp only [epochMinute, Instant.hour, Instant.minute] <;> omega

theorem IsStartOf.unique {minute : Int} {second : Nat} {t u : Instant}
    (ht : t.IsStartOf minute second) (hu : u.IsStartOf minute second) : t = u := by
  obtain ⟨htminute, htsecond, htwhole⟩ := isStartOf_iff.1 ht
  obtain ⟨huminute, husecond, huwhole⟩ := isStartOf_iff.1 hu
  have htlt := t.second.isLt
  have hult := u.second.isLt
  have htnano := t.nano_lt
  have hunano := u.nano_lt
  have htleap := t.leap
  have huleap := u.leap
  simp only [Instant.epochMinute, Instant.secondOfMinute, Instant.nanoOfSecond]
    at htminute huminute htsecond husecond htwhole huwhole
  refine eq_of_parts (Date.epochDay_injective ?_) ?_ ?_ <;> omega

theorem IsStartOf.iff {minute minute' : Int} {second second' : Nat} {t : Instant}
    (h : t.IsStartOf minute second) :
    t.IsStartOf minute' second' ↔ minute = minute' ∧ second = second' := by
  obtain ⟨hminute, hsecond, hwhole⟩ := isStartOf_iff.1 h
  rw [isStartOf_iff, hminute, hsecond]
  exact ⟨fun h' => ⟨h'.1, h'.2.1⟩, fun h' => ⟨h'.1, h'.2, hwhole⟩⟩

theorem isStartOf_wholeSecond (t : Instant) :
    t.wholeSecond.IsStartOf t.epochMinute (t.second.val % 60) := by
  rw [isStartOf_iff]
  exact ⟨rfl, by simp [secondOfMinute, wholeSecond], rfl⟩

/-- A clock in UTC shows the minutes of the offset less, and the same second. -/
theorem minute_behind? {minutes : Int} {t u : Instant} (h : behind? minutes t = some u)
    (hday : -1440 < minutes ∧ minutes < 1440) :
    u.epochMinute = t.epochMinute - minutes ∧ u.second.val % 60 = t.second.val % 60 := by
  have hsecond := t.second.isLt
  simp only [behind?, Option.map_eq_some_iff] at h
  obtain ⟨date, hdate, rfl⟩ := h
  simp only [epochMinute]
  split_ifs at hdate with hearlier hlater
  · have hnumber := Date.epochDay_prev? hdate
    omega
  · have hnumber := Date.epochDay_next? hdate
    omega
  · cases hdate
    omega

theorem exists_behind? {t : Instant} (h : IsFourDigitYear t.date.year) (minutes : Int) :
    ∃ u, behind? minutes t = some u := by
  obtain ⟨hfirst, hlast⟩ := h
  obtain ⟨prev, hprev⟩ := Date.exists_prev? (d := t.date) (by simp only [Date.firstYear]; omega)
  obtain ⟨next, hnext⟩ := Date.exists_next? (d := t.date) (by simp only [Date.lastYear]; omega)
  simp only [behind?, hprev, hnext]
  split_ifs <;> exact ⟨_, rfl⟩

end Instant

end EntityQuery
