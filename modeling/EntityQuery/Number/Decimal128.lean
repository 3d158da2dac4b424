import EntityQuery.Number.Integer
/-!
# Decimal numbers of 128 bits

A number with a coefficient of at most 34 digits and a power of ten from -6176 to 6111,
so that `1.0` and `1.00` are two numbers of one value.

Reading never rounds. Zeros move between the coefficient and the power of ten until both
are in range, and a text for which that is not enough is refused.
-/

namespace EntityQuery

inductive Decimal128
  | notANumber (negative signalling : Bool)
  | infinite (negative : Bool)
  /-- The number `±coefficient · 10 ^ exponent`. -/
  | finite (negative : Bool) (coefficient : Nat) (exponent : Int)
  deriving DecidableEq, Repr

namespace Decimal128

def maxDigits : Nat := 34

def leastExponent : Int := -6176

def greatestExponent : Int := 6111

/-! ## Reading -/

/-- Digits and the power of ten of the last of them. -/
structure Scaled where
  digits : List Char
  exponent : Int

/-- Powers of ten have sixteen bits at every step. -/
def power? (n : Int) : Option Int :=
  if -0x8000 ≤ n ∧ n ≤ 0x7FFF then some n else none

def readPower? (cs : List Char) : Option Int :=
  match Integer.read cs with
  | .ok n => power? n.toInt
  | .error _ => none

/-- Splits a number at the mark of its exponent, which is zero if there is none. -/
def splitExponent? (cs : List Char) : Option (List Char × Int) :=
  let isMark c := c = 'e' || c = 'E'
  match cs.dropWhile (!isMark ·) with
  | [] => some (cs, 0)
  | _ :: power => (readPower? power).map (cs.takeWhile (!isMark ·), ·)

def dropPoint? (cs : List Char) (exponent : Int) : Option Scaled :=
  match cs.dropWhile (· ≠ '.') with
  | [] => some ⟨cs, exponent⟩
  | _ :: fraction => do
    let places ← power? fraction.length
    let exponent ← power? (exponent - places)
    some ⟨cs.takeWhile (· ≠ '.') ++ fraction, exponent⟩

namespace Scaled

/-- Removes leading zeros up to the last digit. -/
def trim (s : Scaled) : Scaled :=
  let digits := s.digits.dropWhile (· = '0')
  { s with digits := if digits.isEmpty then s.digits.take 1 else digits }

/-- Keeps the given number of digits, if all others are zeros. -/
def keep? (count : Nat) (s : Scaled) : Option Scaled := do
  let dropped := s.digits.drop count
  let places ← power? dropped.length
  let exponent ← power? (s.exponent + places)
  if dropped.all (· = '0') then some ⟨s.digits.take count, exponent⟩ else none

/-- Brings the digits down to as many as a coefficient has. -/
def fitDigits? (s : Scaled) : Option Scaled :=
  if s.digits.length ≤ maxDigits then some s else s.keep? maxDigits

/-- Brings the power of ten up to the least one. -/
def raise? (s : Scaled) : Option Scaled :=
  let excess := (leastExponent - s.exponent).toNat
  if leastExponent ≤ s.exponent then some s
  else if s.digits = ['0'] then some { s with exponent := leastExponent }
  else if excess ≤ s.digits.length then s.keep? (s.digits.length - excess)
  else none

/-- Brings the power of ten down to the greatest one. -/
def lower? (s : Scaled) : Option Scaled :=
  let excess := (s.exponent - greatestExponent).toNat
  if s.exponent ≤ greatestExponent then some s
  else if s.digits = ['0'] then some { s with exponent := greatestExponent }
  else if s.digits.length + excess ≤ maxDigits then
    some ⟨s.digits ++ List.replicate excess '0', greatestExponent⟩
  else none

/-- The number that one or more digits denote. -/
def coefficient? (s : Scaled) : Option Nat :=
  if !s.digits.isEmpty && s.digits.all Text.isDigit then some (Text.natOfDigits s.digits) else none

end Scaled

/-- Digits with a point and an exponent. -/
def readFinite? (negative : Bool) (cs : List Char) : Option Decimal128 := do
  let (digits, exponent) ← splitExponent? cs
  let s ← dropPoint? digits exponent
  let s ← s.trim.fitDigits?
  let s ← s.raise?
  let s ← s.lower?
  let coefficient ← s.coefficient?
  some (finite negative coefficient s.exponent)

/-- Reads a number behind its sign; the words are read in letters of any case. -/
def readUnsigned? (negative : Bool) (cs : List Char) : Option Decimal128 :=
  match String.ofList (cs.map Char.toLower) with
  | "nan" => some (notANumber negative false)
  | "snan" => some (notANumber negative true)
  | "inf" | "infinity" => some (infinite negative)
  | _ => readFinite? negative cs

/-- An optional sign, then a number or its word. -/
def read? : List Char → Option Decimal128
  | '-' :: rest => readUnsigned? true rest
  | '+' :: rest => readUnsigned? false rest
  | rest => readUnsigned? false rest

/-! ## Writing -/

/-- Digits around a point, if the power of ten is not positive and at most five zeros follow the
point, and one digit before the point otherwise. -/
def writeFinite (coefficient : Nat) (exponent : Int) : List Char :=
  let digits := Text.natDigits coefficient
  let leading := exponent + digits.length - 1
  let places := exponent.natAbs
  if exponent ≤ 0 ∧ -6 ≤ leading then
    if exponent = 0 then digits
    else if digits.length ≤ places then
      '0' :: '.' :: List.replicate (places - digits.length) '0' ++ digits
    else digits.take (digits.length - places) ++ '.' :: digits.drop (digits.length - places)
  else
    let fraction := digits.drop 1
    let sign := if 0 < leading then ['+'] else if leading < 0 then ['-'] else []
    digits.take 1 ++ (if fraction.isEmpty then [] else '.' :: fraction) ++
      'E' :: sign ++ Text.natDigits leading.natAbs

/-- The text of a number; what is not a number has no sign. -/
def write : Decimal128 → List Char
  | notANumber _ _ => "NaN".toList
  | infinite negative => (if negative then ['-'] else []) ++ "Infinity".toList
  | finite negative coefficient exponent =>
    (if negative then ['-'] else []) ++ writeFinite coefficient exponent

/-! ## Bits -/

/-- The number of 128 bits: sign, power of ten, coefficient. Too large a coefficient is zero. -/
def ofBits (n : Nat) : Decimal128 :=
  let negative := n >>> 127 % 2 = 1
  if n >>> 123 % 16 = 15 then
    if n >>> 122 % 2 = 1 then notANumber negative (n >>> 121 % 2 = 1) else infinite negative
  else if n >>> 125 % 4 = 3 then finite negative 0 (leastExponent + (n >>> 111 % 0x4000 : Nat))
  else
    let coefficient := n % Nat.pow 2 113
    finite negative (if coefficient < Nat.pow 10 maxDigits then coefficient else 0)
      (leastExponent + (n >>> 113 % 0x4000 : Nat))

end Decimal128

end EntityQuery
