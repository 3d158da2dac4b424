/-!
# Decoding UTF-8

Decoding never fails: bytes that begin no character, and beginnings of characters
that are cut short, are read as the replacement character, one for each longest
beginning.

The decoder is a machine that takes one byte at a time. Between characters it
waits for no byte; inside one it knows in which range each further byte has to
lie, which rules out overlong forms and the halves of surrogate pairs.
-/

namespace EntityQuery.Text

/-- The character read in place of what is no character. -/
def replacement : Char := '\uFFFD'

def encodeUtf8 (cs : List Char) : List Nat :=
  cs.flatMap fun c => (String.utf8EncodeChar c).map UInt8.toNat

namespace Utf8

/-- The bits of a character read so far, and the ranges of the bytes that complete it. -/
structure State where
  bits : Nat
  ranges : List (Nat × Nat)
  deriving DecidableEq, Repr

def State.between : State :=
  ⟨0, []⟩

/-- The range of a byte that goes on with a character. -/
def tail : Nat × Nat := (0x80, 0xBF)

/-- The state behind the first byte of a character, if there is a character with that byte. -/
def lead? (b : Nat) : Option State :=
  if b < 0x80 then some ⟨b, []⟩
  else if b < 0xC2 then none
  else if b < 0xE0 then some ⟨b - 0xC0, [tail]⟩
  else if b = 0xE0 then some ⟨0, [(0xA0, 0xBF), tail]⟩
  else if b = 0xED then some ⟨0xD, [(0x80, 0x9F), tail]⟩
  else if b < 0xF0 then some ⟨b - 0xE0, [tail, tail]⟩
  else if b = 0xF0 then some ⟨0, [(0x90, 0xBF), tail, tail]⟩
  else if b < 0xF4 then some ⟨b - 0xF0, [tail, tail, tail]⟩
  else if b = 0xF4 then some ⟨4, [(0x80, 0x8F), tail, tail]⟩
  else none

/-- The character that a state completes, if it waits for no further byte. -/
def State.settle (s : State) : List Char × State :=
  if s.ranges.isEmpty then ([Char.ofNat s.bits], .between) else ([], s)

/-- Takes the first byte of a character. -/
def start (b : Nat) : List Char × State :=
  match lead? b with
  | some s => s.settle
  | none => ([replacement], .between)

def step (s : State) (b : Nat) : List Char × State :=
  match s.ranges with
  | [] => start b
  | (low, high) :: ranges =>
    if low ≤ b ∧ b ≤ high then State.settle ⟨64 * s.bits + (b - 0x80), ranges⟩
    else
      let (chars, s) := start b
      (replacement :: chars, s)

/-- Takes all remaining bytes. -/
def run (s : State) : List Nat → List Char
  | [] => if s.ranges.isEmpty then [] else [replacement]
  | b :: rest =>
    let (chars, s) := step s b
    chars ++ run s rest

end Utf8

def decodeUtf8 (bytes : List Nat) : List Char :=
  Utf8.run .between bytes

end EntityQuery.Text
