/-!
# Base 64

Bytes as text over an alphabet of 64 characters, four characters for three bytes. The last
one or two bytes have two or three characters, and equals signs fill up the four.

Reading asks for the signs and for zeros in the bits that belong to no byte, so every list
of bytes has one text.
-/

namespace EntityQuery.Text.Base64

def char (n : Nat) : Char :=
  if n < 26 then Char.ofNat ('A'.toNat + n)
  else if n < 52 then Char.ofNat ('a'.toNat + (n - 26))
  else if n < 62 then Char.ofNat ('0'.toNat + (n - 52))
  else if n = 62 then '+'
  else '/'

def value? (c : Char) : Option Nat :=
  if 'A' ≤ c && c ≤ 'Z' then some (c.toNat - 'A'.toNat)
  else if 'a' ≤ c && c ≤ 'z' then some (c.toNat - 'a'.toNat + 26)
  else if '0' ≤ c && c ≤ '9' then some (c.toNat - '0'.toNat + 52)
  else if c = '+' then some 62
  else if c = '/' then some 63
  else none

def encode : List UInt8 → List Char
  | [] => []
  | [a] => [char (a.toNat / 4), char (a.toNat % 4 * 16), '=', '=']
  | [a, b] =>
    [char (a.toNat / 4), char (a.toNat % 4 * 16 + b.toNat / 16), char (b.toNat % 16 * 4), '=']
  | a :: b :: c :: rest =>
    char (a.toNat / 4) :: char (a.toNat % 4 * 16 + b.toNat / 16) ::
      char (b.toNat % 16 * 4 + c.toNat / 64) :: char (c.toNat % 64) :: encode rest

def one? (a b : Char) : Option (List UInt8) := do
  let x ← value? a
  let y ← value? b
  if y % 16 = 0 then some [UInt8.ofNat (4 * x + y / 16)] else none

def two? (a b c : Char) : Option (List UInt8) := do
  let x ← value? a
  let y ← value? b
  let z ← value? c
  if z % 4 = 0 then
    some [UInt8.ofNat (4 * x + y / 16), UInt8.ofNat (y % 16 * 16 + z / 4)]
  else none

def three? (a b c d : Char) : Option (List UInt8) := do
  let x ← value? a
  let y ← value? b
  let z ← value? c
  let w ← value? d
  some [UInt8.ofNat (4 * x + y / 16), UInt8.ofNat (y % 16 * 16 + z / 4),
    UInt8.ofNat (z % 4 * 64 + w)]

def decode? : List Char → Option (List UInt8)
  | [] => some []
  | a :: b :: c :: d :: rest =>
    if rest.isEmpty && d = '=' then if c = '=' then one? a b else two? a b c
    else do
      let bytes ← three? a b c d
      let more ← decode? rest
      some (bytes ++ more)
  | _ => none

/-- Every number below 64 is that of its character, and no character is an equals sign. -/
theorem value?_char {n : Nat} (h : n < 64) : value? (char n) = some n ∧ char n ≠ '=' := by
  revert n
  decide

theorem ofNat_eq {a : UInt8} {n : Nat} (h : n = a.toNat) : UInt8.ofNat n = a := by
  subst h
  simp

theorem one?_char (a : UInt8) :
    one? (char (a.toNat / 4)) (char (a.toNat % 4 * 16)) = some [a] := by
  have ha := a.toNat_lt
  simp only [one?, (value?_char (show a.toNat / 4 < 64 by omega)).1,
    (value?_char (show a.toNat % 4 * 16 < 64 by omega)).1, Option.bind_eq_bind, Option.bind_some]
  rw [if_pos (by omega), ofNat_eq (a := a) (by omega)]

theorem two?_char (a b : UInt8) :
    two? (char (a.toNat / 4)) (char (a.toNat % 4 * 16 + b.toNat / 16))
      (char (b.toNat % 16 * 4)) = some [a, b] := by
  have ha := a.toNat_lt
  have hb := b.toNat_lt
  simp only [two?, (value?_char (show a.toNat / 4 < 64 by omega)).1,
    (value?_char (show a.toNat % 4 * 16 + b.toNat / 16 < 64 by omega)).1,
    (value?_char (show b.toNat % 16 * 4 < 64 by omega)).1, Option.bind_eq_bind, Option.bind_some]
  rw [if_pos (by omega), ofNat_eq (a := a) (by omega), ofNat_eq (a := b) (by omega)]

theorem three?_char (a b c : UInt8) :
    three? (char (a.toNat / 4)) (char (a.toNat % 4 * 16 + b.toNat / 16))
      (char (b.toNat % 16 * 4 + c.toNat / 64)) (char (c.toNat % 64)) = some [a, b, c] := by
  have ha := a.toNat_lt
  have hb := b.toNat_lt
  have hc := c.toNat_lt
  simp only [three?, (value?_char (show a.toNat / 4 < 64 by omega)).1,
    (value?_char (show a.toNat % 4 * 16 + b.toNat / 16 < 64 by omega)).1,
    (value?_char (show b.toNat % 16 * 4 + c.toNat / 64 < 64 by omega)).1,
    (value?_char (show c.toNat % 64 < 64 by omega)).1, Option.bind_eq_bind, Option.bind_some]
  rw [ofNat_eq (a := a) (by omega), ofNat_eq (a := b) (by omega), ofNat_eq (a := c) (by omega)]

/-- What is written reads back. -/
theorem decode?_encode (bytes : List UInt8) : decode? (encode bytes) = some bytes := by
  fun_induction encode bytes with
  | case1 => rfl
  | case2 a => simp [decode?, one?_char]
  | case3 a b =>
    have hne := (value?_char (show b.toNat % 16 * 4 < 64 by have := b.toNat_lt; omega)).2
    simp [decode?, two?_char, hne]
  | case4 a b c rest ih =>
    have hne := (value?_char (show c.toNat % 64 < 64 by omega)).2
    simp [decode?, three?_char, hne, ih]

end EntityQuery.Text.Base64
