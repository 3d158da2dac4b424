import EntityQuery.Time.Date
/-!
# Instants

Points in time, to the nanosecond, by their date and time of day in UTC. A leap
second is the second 59 of its minute with a count of nanoseconds of a billion or
more, so it lies between second 59 and the following minute.
-/

namespace EntityQuery

/-- A point in time by its UTC date, second of the day and nanosecond. -/
structure Instant where
  date : Date
  second : Fin 86400
  nano : Nat
  nano_lt : nano < 2000000000
  leap : 1000000000 ≤ nano → second.val % 60 = 59
  deriving DecidableEq

namespace Instant

/-- The order of dates, then seconds, then nanoseconds. -/
instance : Ord Instant where
  compare := compareLex (compareOn Instant.date)
    (compareLex (compareOn Instant.second) (compareOn Instant.nano))

/-- The instant of a UTC date and time of day, second 60 being a leap second. -/
def ofCivil? (date : Date) (hour minute second nano : Nat) : Option Instant :=
  if h : hour < 24 ∧ minute < 60 ∧ second ≤ 60 ∧ nano < 1000000000 then
    some
      { date
        second := ⟨3600 * hour + 60 * minute + min second 59, by omega⟩
        nano := if second = 60 then nano + 1000000000 else nano
        nano_lt := by split <;> omega
        leap := by intro hn; split at hn <;> simp only <;> omega }
  else none

def hour (t : Instant) : Nat :=
  t.second / 3600

def minute (t : Instant) : Nat :=
  t.second / 60 % 60

/-- The second within the minute, 60 in a leap second. -/
def secondOfMinute (t : Instant) : Nat :=
  t.second % 60 + t.nano / 1000000000

def nanoOfSecond (t : Instant) : Nat :=
  t.nano % 1000000000

/-- The start of the second, which for a leap second is the start of second 59. -/
def wholeSecond (t : Instant) : Instant :=
  { t with nano := 0, nano_lt := by omega, leap := by omega }

/-- The instant at which clocks in UTC show what clocks `minutes` ahead of UTC show at `t`. -/
def behind? (minutes : Int) (t : Instant) : Option Instant :=
  let shifted : Int := t.second.val - 60 * minutes
  let date? :=
    if shifted < 0 then t.date.prev?
    else if 86400 ≤ shifted then t.date.next?
    else some t.date
  date?.map fun date =>
    { t with
      date
      second := ⟨(shifted % 86400).toNat, by omega⟩
      leap := by intro hn; have := t.leap hn; simp only [shifted]; omega }

/-- Nanoseconds from 1970-01-01, a leap second counting as part of the following one. -/
def epochNanos (t : Instant) : Int :=
  (t.date.epochDay * 86400 + t.second.val) * 1000000000 + t.nano

/-- The instant a number of nanoseconds after 1970-01-01. -/
def ofEpochNanos? (n : Int) : Option Instant :=
  let seconds := n / 1000000000
  (Date.ofEpochDay? (seconds / 86400)).map fun date =>
    { date
      second := ⟨(seconds % 86400).toNat, by omega⟩
      nano := (n % 1000000000).toNat
      nano_lt := by omega
      leap := by omega }

end Instant

end EntityQuery
