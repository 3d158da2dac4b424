import EntityQuery.Number.Binary64
/-!
# Rounding to a double

A fraction of whole numbers is rounded to the nearest double, a tie going to the
even significand. The spacing is chosen so that the significand has 53 bits, or
is the spacing of the smallest doubles. Products and quotients of doubles are
the rounded exact products and quotients.
-/

namespace EntityQuery

/-- The whole number nearest to `num / den`; a half goes to the even neighbour. -/
def roundHalfEven (num den : Nat) : Nat :=
  let quotient := num / den
  let twice := 2 * (num % den)
  if twice < den then quotient
  else if den < twice then quotient + 1
  else if quotient % 2 = 0 then quotient else quotient + 1

def powLeRatio (k : Int) (num den : Nat) : Bool :=
  den * Nat.pow 2 k.toNat ≤ num * Nat.pow 2 (-k).toNat

/-- The greatest `k` with `2 ^ k ≤ num / den`, both being positive. -/
def floorLog2 (num den : Nat) : Int :=
  let k : Int := num.log2 - den.log2
  if powLeRatio k num den then k else k - 1

namespace Binary64

/-- The double nearest to `num / den`, `den` being positive. -/
def ofRatio (negative : Bool) (num den : Nat) : Binary64 :=
  if num = 0 then zero negative
  else
    let spacing := max (floorLog2 num den - 52) (-1074)
    let units := roundHalfEven (num * Nat.pow 2 (-spacing).toNat) (den * Nat.pow 2 spacing.toNat)
    ofMagnitude negative ((spacing + 1074).toNat * 0x10000000000000 + units)

def ofInt (n : Int) : Binary64 :=
  ofRatio (n < 0) n.natAbs 1

def mul (x y : Binary64) : Binary64 :=
  ofRatio (x.negative != y.negative) (x.ratio.1 * y.ratio.1) (x.ratio.2 * y.ratio.2)

/-- The rounded quotient of finite doubles, the divisor not being zero. -/
def div (x y : Binary64) : Binary64 :=
  ofRatio (x.negative != y.negative) (x.ratio.1 * y.ratio.2) (x.ratio.2 * y.ratio.1)

end Binary64

end EntityQuery
