/-!
# Calendar dates

Days of the proleptic Gregorian calendar. The year before year 1 is year 0,
which is a leap year. Years run from -262143 to 262142, and every date is a day
that exists.

`epochDay` counts days from 1970-01-01 and `ofEpochDay?` counts back.
-/

namespace EntityQuery

/-- Every fourth year, except the centuries that 400 does not divide. -/
def isLeapYear (year : Int) : Bool :=
  year % 4 = 0 && (year % 100 ≠ 0 || year % 400 = 0)

def daysInMonth (year : Int) (month : Nat) : Nat :=
  if month = 2 then if isLeapYear year then 29 else 28
  else if month = 4 ∨ month = 6 ∨ month = 9 ∨ month = 11 then 30
  else 31

namespace Date

def firstYear : Int := -262143

def lastYear : Int := 262142

/-- Year, month and day that name a day of the calendar. -/
def Valid (year : Int) (month day : Nat) : Prop :=
  (firstYear ≤ year ∧ year ≤ lastYear) ∧ (1 ≤ month ∧ month ≤ 12) ∧
    1 ≤ day ∧ day ≤ daysInMonth year month

instance (year : Int) (month day : Nat) : Decidable (Valid year month day) :=
  inferInstanceAs (Decidable (_ ∧ _ ∧ _ ∧ _))

end Date

/-- A day of the calendar. -/
structure Date where
  year : Int
  month : Nat
  day : Nat
  valid : Date.Valid year month day
  deriving DecidableEq

namespace Date

def ofCivil? (year : Int) (month day : Nat) : Option Date :=
  if h : Valid year month day then some ⟨year, month, day, h⟩ else none

/-- The order of years, then months, then days. -/
instance : Ord Date where
  compare := compareLex (compareOn Date.year)
    (compareLex (compareOn Date.month) (compareOn Date.day))

def next? (d : Date) : Option Date :=
  if d.day < daysInMonth d.year d.month then ofCivil? d.year d.month (d.day + 1)
  else if d.month < 12 then ofCivil? d.year (d.month + 1) 1
  else ofCivil? (d.year + 1) 1 1

def prev? (d : Date) : Option Date :=
  if 1 < d.day then ofCivil? d.year d.month (d.day - 1)
  else if 1 < d.month then ofCivil? d.year (d.month - 1) (daysInMonth d.year (d.month - 1))
  else ofCivil? (d.year - 1) 12 31

/-- Days from 1970-01-01 to the first of January of a year. -/
def yearStart (year : Int) : Int :=
  let past := year - 1
  365 * past + past / 4 - past / 100 + past / 400 - 719162

/-- Days of a year before the first of a month. -/
def monthStart (year : Int) : Nat → Nat
  | 0 => 0
  | 1 => 0
  | month + 2 => monthStart year (month + 1) + daysInMonth year (month + 1)

/-- Days from 1970-01-01. -/
def epochDay (d : Date) : Int :=
  yearStart d.year + monthStart d.year d.month + d.day - 1

/-- The year of the `n`th day after 1970-01-01: an estimate by the mean year, set right by one. -/
def yearOfEpochDay (n : Int) : Int :=
  let estimate := 1970 + 400 * n / 146097
  if n < yearStart estimate then estimate - 1
  else if yearStart (estimate + 1) ≤ n then estimate + 1
  else estimate

/-- The `n`th day after 1970-01-01. -/
def ofEpochDay? (n : Int) : Option Date :=
  let year := yearOfEpochDay n
  let dayOfYear := (n - yearStart year).toNat
  let passed := (List.range 12).filter fun m => monthStart year (m + 1) ≤ dayOfYear
  let month := passed.length
  ofCivil? year month (dayOfYear - monthStart year month + 1)

end Date

end EntityQuery
