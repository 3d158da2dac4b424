import EntityQuery.Text.Blank
import EntityQuery.Text.Digits
/-!
# Scanning

Steps that read something off the front of a text and return what remains. A
step fails with `none`.
-/

namespace EntityQuery.Text

def scanChar (c : Char) : List Char → Option (List Char)
  | [] => none
  | d :: rest => if d = c then some rest else none

def scanWord : List Char → List Char → Option (List Char)
  | [], cs => some cs
  | c :: word, cs => scanChar c cs >>= scanWord word

/-- The longest run of digits at the front, and what follows it. -/
def scanDigits (cs : List Char) : List Char × List Char :=
  (cs.takeWhile isDigit, cs.dropWhile isDigit)

/-- Reads a number of at least one and at most `width` digits, as many as there are. -/
def scanNumber (width : Nat) (cs : List Char) : Option (Nat × List Char) :=
  let digits := (cs.take width).takeWhile isDigit
  if digits.isEmpty then none else some (natOfDigits digits, cs.drop digits.length)

/-- Reads a number of exactly `width` digits. -/
def scanFixed (width : Nat) (cs : List Char) : Option (Nat × List Char) :=
  let digits := (cs.take width).takeWhile isDigit
  if digits.length = width then some (natOfDigits digits, cs.drop width) else none

/-- Reads a number after any blanks. -/
def scanSpacedNumber (width : Nat) (cs : List Char) : Option (Nat × List Char) :=
  scanNumber width (trimStart cs)

end EntityQuery.Text
