/-!
# Double precision numbers

A double is kept as the three fields of its 64 bits, so that every value has one
form and equality of forms tells signed zeros and the many not-a-numbers apart.
The numeric order is read off the fields: among doubles of one sign, the number
made of exponent and fraction grows with the magnitude.

Everything here is exact arithmetic on whole numbers. No operation of a
processor or of a runtime library is used.
-/

namespace EntityQuery

/-- A double by its sign, biased exponent and fraction. -/
structure Binary64 where
  negative : Bool
  exponent : Fin 2048
  fraction : Fin 0x10000000000000
  deriving DecidableEq

namespace Binary64

/-- Exponent and fraction as one number of 63 bits. -/
def magnitude (x : Binary64) : Nat :=
  x.exponent * 0x10000000000000 + x.fraction

def infinite : Nat :=
  2047 * 0x10000000000000

/-- The double of a sign and a magnitude; too large a magnitude gives infinity. -/
def ofMagnitude (negative : Bool) (n : Nat) : Binary64 :=
  if h : n < infinite then
    ⟨negative, ⟨n / 0x10000000000000, by unfold infinite at h; omega⟩,
      ⟨n % 0x10000000000000, by omega⟩⟩
  else ⟨negative, 2047, 0⟩

def toBits (x : Binary64) : Nat :=
  (if x.negative then 0x8000000000000000 else 0) + x.magnitude

/-- The double whose bits are the last 64 bits of `n`. -/
def ofBits (n : Nat) : Binary64 :=
  ⟨n / 0x8000000000000000 % 2 = 1, ⟨n / 0x10000000000000 % 2048, by omega⟩,
    ⟨n % 0x10000000000000, by omega⟩⟩

def zero (negative : Bool) : Binary64 :=
  ofMagnitude negative 0

/-- The not-a-number of the given sign whose fraction has its first bit alone. -/
def notANumber (negative : Bool) : Binary64 :=
  ⟨negative, 2047, 0x8000000000000⟩

def isNaN (x : Binary64) : Bool :=
  infinite < x.magnitude

def isInfinite (x : Binary64) : Bool :=
  x.magnitude = infinite

def isFinite (x : Binary64) : Bool :=
  x.magnitude < infinite

def isZero (x : Binary64) : Bool :=
  x.magnitude = 0

def neg (x : Binary64) : Binary64 :=
  { x with negative := !x.negative }

/-- The whole number that a finite double is a power-of-two multiple of. -/
def significand (x : Binary64) : Nat :=
  if x.exponent.val = 0 then x.fraction else 0x10000000000000 + x.fraction

/-- The power of two that scales the significand. -/
def scale (x : Binary64) : Int :=
  (max 1 x.exponent.val : Nat) - 1075

/-- The magnitude of a finite double as a fraction of whole numbers. -/
def ratio (x : Binary64) : Nat × Nat :=
  (x.significand * Nat.pow 2 x.scale.toNat, Nat.pow 2 (-x.scale).toNat)

/-- A number that grows with the value; both zeros have the same. -/
def rank (x : Binary64) : Int :=
  if x.negative then -(x.magnitude : Int) else x.magnitude

/-- The order of two values; nothing compares with a not-a-number. -/
def compare? (x y : Binary64) : Option Ordering :=
  if x.isNaN || y.isNaN then none else some (compare x.rank y.rank)

/-- Numeric equality: a not-a-number differs from itself and the zeros are equal. -/
def numEq (x y : Binary64) : Bool :=
  x.compare? y == some .eq

end Binary64

end EntityQuery
