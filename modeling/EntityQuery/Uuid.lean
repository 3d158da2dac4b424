import EntityQuery.Text.Digits
/-!
# Universally unique identifiers

An identifier is a number of 128 bits. It is written as 32 lower-case hexadecimal
digits in groups of 8, 4, 4, 4 and 12 with hyphens between them, and read in that
form, with braces around it, behind `urn:uuid:`, or without hyphens, all of it in
letters of either case. Identifiers are ordered as numbers, which is the order of
their sixteen bytes.
-/

namespace EntityQuery

/-- An identifier as a number. -/
structure Uuid where
  value : Nat
  value_lt : value < 0x100000000000000000000000000000000
  deriving DecidableEq

namespace Uuid

/-- The identifier of the last 128 bits of a number. -/
def ofNat (n : Nat) : Uuid :=
  ⟨n % 0x100000000000000000000000000000000, Nat.mod_lt n (by decide)⟩

/-- The identifier with no bit set. -/
def nil : Uuid :=
  ofNat 0

/-- The order of the numbers. -/
instance : Ord Uuid where
  compare := compareOn Uuid.value

/-- The sixteen bytes, most significant first. -/
def bytes (u : Uuid) : List Nat :=
  (List.range 16).map fun i => u.value / Nat.pow 256 (15 - i) % 256

def hyphenate (digits : List Char) : List Char :=
  digits.take 8 ++ '-' :: (digits.drop 8).take 4 ++ '-' :: (digits.drop 12).take 4 ++
    '-' :: (digits.drop 16).take 4 ++ '-' :: digits.drop 20

/-- Groups of 8, 4, 4, 4 and 12 lower-case digits. -/
def write (u : Uuid) : List Char :=
  hyphenate (Text.fixedHex 32 u.value)

def toText (u : Uuid) : String :=
  String.ofList u.write

/-- Exactly 32 digits. -/
def readSimple? (cs : List Char) : Option Uuid :=
  if cs.length = 32 then (Text.natOfHex? cs).map ofNat else none

/-- Exactly 32 digits with hyphens in the four places. -/
def readHyphenated? (cs : List Char) : Option Uuid :=
  if cs.length = 36 ∧ [8, 13, 18, 23].all fun i => cs[i]? == some '-' then
    readSimple? (cs.take 8 ++ (cs.drop 9).take 4 ++ (cs.drop 14).take 4 ++
      (cs.drop 19).take 4 ++ cs.drop 24)
  else none

/-- Removes enclosing braces. -/
def unbrace? : List Char → Option (List Char)
  | '\x7b' :: rest => if rest.getLast? = some '\x7d' then some rest.dropLast else none
  | _ => none

/-- Removes the name of the kind of number. -/
def unname? (cs : List Char) : Option (List Char) :=
  if (cs.take 9).map Char.toLower = "urn:uuid:".toList then some (cs.drop 9) else none

/-- Any of the four forms. -/
def read? (cs : List Char) : Option Uuid :=
  readSimple? cs <|> readHyphenated? cs <|> (unbrace? cs).bind readHyphenated? <|>
    (unname? cs).bind readHyphenated?

/-- The random identifier made of 128 random bits: six of them state the kind of identifier. -/
def ofRandom (n : Nat) : Uuid :=
  let high := n / 0x10000000000000000
  let low := n % 0x4000000000000000
  let stated := high / 0x10000 * 0x10000 + 0x4000 + high % 0x1000
  ofNat (stated * 0x10000000000000000 + 0x8000000000000000 + low)

/-- The digit that states the kind of an identifier. -/
def version (u : Uuid) : Nat :=
  u.value / 0x10000000000000000000 % 16

end Uuid

end EntityQuery
