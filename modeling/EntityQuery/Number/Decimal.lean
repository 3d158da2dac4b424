import EntityQuery.Number.Rounding
import EntityQuery.Text.Digits
import EntityQuery.Text.Scan
/-!
# Decimal numbers

A decimal is a whole coefficient and a power of ten. It is read from text with a
sign, at most one point and an exponent, and is rounded once to the nearest
double. Doubles beyond the decimals are read from their words.
-/

namespace EntityQuery

/-- The number `±coefficient · 10 ^ exponent`. -/
structure Decimal where
  negative : Bool
  coefficient : Nat
  exponent : Int
  deriving DecidableEq, Repr

namespace Decimal

/-- Reads an optional sign; the flag tells whether it is a minus. -/
def scanSign : List Char → Bool × List Char
  | '-' :: rest => (true, rest)
  | '+' :: rest => (false, rest)
  | rest => (false, rest)

/-- Reads the digits behind a point, if there is one. -/
def scanFraction : List Char → List Char × List Char
  | '.' :: rest => Text.scanDigits rest
  | rest => ([], rest)

/-- An exponent is absent, or a mark, an optional sign and one or more digits. -/
def readExponent? : List Char → Option Int
  | [] => some 0
  | mark :: rest =>
    if mark = 'e' || mark = 'E' then
      let (negative, digits) := scanSign rest
      if digits.isEmpty || !digits.all Text.isDigit then none
      else
        let n : Int := Text.natOfDigits digits
        some (if negative then -n else n)
    else none

/-- Digits with at most one point, one digit at least, between a sign and an exponent. -/
def read? (cs : List Char) : Option Decimal :=
  let (negative, unsigned) := scanSign cs
  let (whole, afterWhole) := Text.scanDigits unsigned
  let (fraction, afterFraction) := scanFraction afterWhole
  if whole.isEmpty && fraction.isEmpty then none
  else (readExponent? afterFraction).map fun exponent =>
    ⟨negative, Text.natOfDigits (whole ++ fraction), exponent - fraction.length⟩

/-- The magnitude as a fraction of whole numbers. -/
def ratio (d : Decimal) : Nat × Nat :=
  (d.coefficient * Nat.pow 10 d.exponent.toNat, Nat.pow 10 (-d.exponent).toNat)

/-- The power of ten just above the magnitude of a decimal that is not zero. -/
def order (d : Decimal) : Int :=
  (Text.natDigits d.coefficient).length + d.exponent

/-- The nearest double. Beyond the range of doubles the power of ten is not computed. -/
def toBinary64 (d : Decimal) : Binary64 :=
  if d.coefficient = 0 then .zero d.negative
  else if 310 < d.order then .ofMagnitude d.negative Binary64.infinite
  else if d.order < -330 then .zero d.negative
  else .ofRatio d.negative d.ratio.1 d.ratio.2

end Decimal

/-- The double nearest to a decimal, or what a sign and a word in letters of any case name. -/
def Binary64.read? (cs : List Char) : Option Binary64 :=
  let (negative, word) := Decimal.scanSign cs
  match String.ofList (word.map Char.toLower) with
  | "nan" => some (.notANumber negative)
  | "inf" | "infinity" => some (.ofMagnitude negative Binary64.infinite)
  | _ => (Decimal.read? cs).map Decimal.toBinary64

end EntityQuery
