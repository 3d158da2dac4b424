/-!
# Saturating words

Sums and products of unsigned 64-bit numbers that stop at the greatest one, and
the step from unsigned to signed numbers that stops there too.
-/

namespace EntityQuery.Saturating

def greatest : UInt64 := 0xFFFFFFFFFFFFFFFF

/-- The word of a number, or the greatest word. -/
def ofNat (n : Nat) : UInt64 :=
  if n < 0x10000000000000000 then UInt64.ofNat n else greatest

def add (a b : UInt64) : UInt64 :=
  ofNat (a.toNat + b.toNat)

def mul (a b : UInt64) : UInt64 :=
  ofNat (a.toNat * b.toNat)

/-- The signed number of a word, or the greatest signed number. -/
def toInt64 (a : UInt64) : Int64 :=
  Int64.ofInt (min a.toNat 0x7FFFFFFFFFFFFFFF : Nat)

/-- The word of a signed number that is not negative. -/
def ofInt64 (n : Int64) : UInt64 :=
  UInt64.ofNat n.toInt.toNat

theorem toNat_ofNat (n : Nat) : (ofNat n).toNat = min n 0xFFFFFFFFFFFFFFFF := by
  unfold ofNat
  split
  · rw [UInt64.toNat_ofNat_of_lt' (by simpa using ‹n < 0x10000000000000000›)]
    omega
  · rw [show greatest.toNat = 0xFFFFFFFFFFFFFFFF from rfl]
    omega

@[simp] theorem toNat_add (a b : UInt64) :
    (add a b).toNat = min (a.toNat + b.toNat) 0xFFFFFFFFFFFFFFFF :=
  toNat_ofNat _

@[simp] theorem toNat_mul (a b : UInt64) :
    (mul a b).toNat = min (a.toNat * b.toNat) 0xFFFFFFFFFFFFFFFF :=
  toNat_ofNat _

/-- The signed number of a word is the word itself or the greatest signed number. -/
theorem toInt_toInt64 (a : UInt64) :
    (toInt64 a).toInt = min (a.toNat : Int) 0x7FFFFFFFFFFFFFFF := by
  rw [toInt64, Int64.toInt_ofInt_of_le] <;> omega

end EntityQuery.Saturating
