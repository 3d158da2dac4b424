import EntityQuery.Text.Digits
import EntityQuery.Time.Instant
/-!
# Text of dates and instants

Dates are written `YYYY-MM-DD` and instants `YYYY-MM-DDTHH:MM:SS`, a fraction and
`Z`. A year from 0 to 9999 has four digits; any other has a sign and at least
four. Second 60 is written in a leap second.
-/

namespace EntityQuery

inductive FractionStyle
  /-- No fraction. -/
  | none
  /-- No fraction, or 3, 6 or 9 digits, the fewest that lose nothing. -/
  | shortest
  /-- No fraction, or as many digits as lose nothing. -/
  | trimmed
  /-- Nine digits. -/
  | nanoseconds
  deriving DecidableEq, Repr

namespace FractionStyle

/-- The fraction of a second, with its point. -/
def write : FractionStyle → Nat → List Char
  | none, _ => []
  | nanoseconds, nano => '.' :: Text.fixedDigits 9 nano
  | trimmed, nano =>
    let digits := ((Text.fixedDigits 9 nano).reverse.dropWhile (· = '0')).reverse
    if digits.isEmpty then [] else '.' :: digits
  | shortest, nano =>
    if nano = 0 then []
    else if nano % 1000000 = 0 then '.' :: Text.fixedDigits 3 (nano / 1000000)
    else if nano % 1000 = 0 then '.' :: Text.fixedDigits 6 (nano / 1000)
    else '.' :: Text.fixedDigits 9 nano

end FractionStyle

/-- Four digits for a year from 0 to 9999, a sign and at least four for any other. -/
def writeYear (year : Int) : List Char :=
  if 0 ≤ year ∧ year ≤ 9999 then Text.fixedDigits 4 year.toNat
  else (if year < 0 then '-' else '+') :: Text.paddedDigits 4 year.natAbs

/-- `YYYY-MM-DD`. -/
def Date.write (d : Date) : List Char :=
  writeYear d.year ++ '-' :: Text.fixedDigits 2 d.month ++ '-' :: Text.fixedDigits 2 d.day

/-- `HH:MM:SS` and the fraction. -/
def Instant.writeTime (style : FractionStyle) (t : Instant) : List Char :=
  Text.fixedDigits 2 t.hour ++ ':' :: Text.fixedDigits 2 t.minute ++
    ':' :: Text.fixedDigits 2 t.secondOfMinute ++ style.write t.nanoOfSecond

/-- `YYYY-MM-DDTHH:MM:SS`, the fraction and `Z`. -/
def Instant.write (style : FractionStyle) (t : Instant) : List Char :=
  t.date.write ++ 'T' :: t.writeTime style ++ ['Z']

end EntityQuery
