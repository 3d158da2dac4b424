import EntityQuery.Number.Binary64
import EntityQuery.Text.Digits
/-!
# Shortest decimal text

The shortest text of a double has the fewest digits that read back as that
double and, among those, the digits nearest to it. The coarsest decimal grid
with a point between the neighbours' midpoints is searched from the top; on it
only the two grid points around the value can lie there.

Where a text puts its point, when it uses an exponent and which of two equally near
digits it takes is a matter of `NumberStyle`.
-/

namespace EntityQuery

/-- The significant digits of a positive value `0.d₁d₂… · 10 ^ point`. -/
structure ShortDigits where
  digits : List Char
  point : Int
  deriving DecidableEq, Repr

namespace Shortest

/-- A positive double in quarter units of its spacing, with the interval that reads back as it. -/
structure Window where
  value : Nat
  below : Nat
  above : Nat
  /-- Whether the ends of the interval read back too. -/
  closed : Bool
  /-- The power of two of one quarter unit. -/
  scale : Int
  deriving DecidableEq, Repr

/-- Below a power of two the spacing halves, so the interval reaches half as far down. -/
def window (x : Binary64) : Window :=
  let m := x.significand
  { value := 4 * m
    below := if m = 0x10000000000000 then 1 else 2
    above := 2
    closed := m % 2 = 0
    scale := x.scale - 2 }

/-- Which of two equally near grid points is taken. -/
inductive Tie
  | up
  | even
  deriving DecidableEq, Repr

/-- Whether the upper neighbour is taken, given the lower one. -/
def Tie.takesUpper (lower : Nat) : Tie → Bool
  | up => true
  | even => lower % 2 = 1

/-- A grid point in the interval: the lower neighbour of the value, the upper, or the nearer. -/
def gridPoint? (tie : Tie) (w : Window) (grid : Int) : Option Nat :=
  let up := Nat.pow 2 w.scale.toNat * Nat.pow 10 (-grid).toNat
  let unit := Nat.pow 2 (-w.scale).toNat * Nat.pow 10 grid.toNat
  let value := w.value * up
  let rest := value % unit
  let lowerFits := rest < w.below * up || (w.closed && rest == w.below * up)
  let upperFits := unit < rest + w.above * up || (w.closed && unit == rest + w.above * up)
  let upperNearer := unit < 2 * rest || (unit == 2 * rest && tie.takesUpper (value / unit))
  if lowerFits && !(upperFits && upperNearer) then some (value / unit)
  else if upperFits then some (value / unit + 1)
  else none

/-- Searches `count` grids downwards for the first with a point in the interval. -/
def search (tie : Tie) (w : Window) : Nat → Int → Option (Nat × Int)
  | 0, _ => none
  | count + 1, grid =>
    match gridPoint? tie w grid with
    | some n => some (n, grid)
    | none => search tie w count (grid - 1)

/-- Every finite double has at most 17 digits between these two powers of ten. -/
def digits (tie : Tie) (x : Binary64) : ShortDigits :=
  match search tie (window x) 700 309 with
  | some (n, grid) =>
    let ds := Text.natDigits n
    ⟨(ds.reverse.dropWhile (· == '0')).reverse, ds.length + grid⟩
  | none => ⟨['0'], 1⟩

end Shortest

/-- How a number's digits are laid out. -/
structure NumberStyle where
  /-- The points between which no exponent is used. -/
  positional : Int → Bool
  /-- What follows the digits of a whole number. -/
  wholeSuffix : List Char
  tie : Shortest.Tie
  nan : List Char
  infinity : List Char

namespace NumberStyle

/-- Filter texts and messages: never an exponent, and whole numbers without a point. Of two equally
near texts the one farther from zero is taken. -/
def plain : NumberStyle :=
  ⟨fun _ => true, [], .up, "NaN".toList, "inf".toList⟩

/-- Stored and sent JSON: an exponent from `1e16` up and below `1e-5`, a point in every other
number. Of two equally near texts the one with the even last digit is taken. -/
def json : NumberStyle :=
  ⟨fun point => -5 < point && point ≤ 16, ".0".toList, .even, "null".toList, "null".toList⟩

/-- The digits around a point. -/
def positionalText (style : NumberStyle) (d : ShortDigits) : List Char :=
  let count : Int := d.digits.length
  if d.point ≤ 0 then "0.".toList ++ List.replicate (-d.point).toNat '0' ++ d.digits
  else if d.point < count then
    d.digits.take d.point.toNat ++ '.' :: d.digits.drop d.point.toNat
  else d.digits ++ List.replicate (d.point - count).toNat '0' ++ style.wholeSuffix

/-- One digit before the point, and the power of ten behind an `e`. -/
def scientificText (d : ShortDigits) : List Char :=
  let mantissa := match d.digits with
    | first :: [] => [first]
    | first :: rest => first :: '.' :: rest
    | [] => []
  let power := d.point - 1
  mantissa ++ 'e' :: (if power < 0 then ['-'] else []) ++ Text.natDigits power.natAbs

end NumberStyle

/-- The text of a double in the given style. -/
def Binary64.write (style : NumberStyle) (x : Binary64) : List Char :=
  if x.isNaN then style.nan
  else
    let sign := if x.negative then ['-'] else []
    if x.isInfinite then sign ++ style.infinity
    else if x.isZero then sign ++ ['0'] ++ style.wholeSuffix
    else
      let d := Shortest.digits style.tie x
      sign ++ if style.positional d.point then style.positionalText d
        else NumberStyle.scientificText d

end EntityQuery
