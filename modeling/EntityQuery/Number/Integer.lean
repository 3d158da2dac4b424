import EntityQuery.Text.Digits
/-!
# Whole numbers of 64 bits

Reading and writing the signed integers that filters, entities and request
parameters carry. A text is read from the left, so the first character that
makes it unreadable decides how it is reported.
-/

namespace EntityQuery

/-- Why a text denotes no signed 64-bit integer. -/
inductive IntegerFault
  | empty
  | invalidDigit
  | tooLarge
  | tooSmall
  deriving DecidableEq, Repr

def IntegerFault.message : IntegerFault → String
  | .empty => "cannot parse integer from empty string"
  | .invalidDigit => "invalid digit found in string"
  | .tooLarge => "number too large to fit in target type"
  | .tooSmall => "number too small to fit in target type"

namespace Integer

def least : Int := -0x8000000000000000

def greatest : Int := 0x7FFFFFFFFFFFFFFF

/-- The 64-bit integer with the given value, if there is one. -/
def ofInt? (n : Int) : Option Int64 :=
  if least ≤ n ∧ n ≤ greatest then some (Int64.ofInt n) else none

/-- Reads digits behind those that gave `n`, adding each with the given sign. -/
def readDigits (negative : Bool) : Int → List Char → Except IntegerFault Int
  | n, [] => .ok n
  | n, c :: rest =>
    if Text.isDigit c then
      let digit : Int := Text.digitValue c
      let next := if negative then 10 * n - digit else 10 * n + digit
      if next < least then .error .tooSmall
      else if greatest < next then .error .tooLarge
      else readDigits negative next rest
    else .error .invalidDigit

/-- An optional sign, then one or more digits, and nothing else. -/
def read : List Char → Except IntegerFault Int64
  | [] => .error .empty
  | '-' :: [] => .error .invalidDigit
  | '+' :: [] => .error .invalidDigit
  | '-' :: digits => (readDigits true 0 digits).map Int64.ofInt
  | '+' :: digits => (readDigits false 0 digits).map Int64.ofInt
  | digits => (readDigits false 0 digits).map Int64.ofInt

def write (n : Int) : List Char :=
  if n < 0 then '-' :: Text.natDigits n.natAbs else Text.natDigits n.natAbs

end Integer

end EntityQuery
