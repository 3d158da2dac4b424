import EntityQuery.Json.Tree
import EntityQuery.Text.Scan
/-!
# Reading JSON

The grammar of RFC 8259, with nothing before or after the value but blanks. The
reader gives a `Json.Tree`, whose value is `Json.Tree.value?`.

Strings are read in two steps. `scanPieces` finds the end of the string and
decodes its escapes one by one, and `textOfPieces?` puts surrogate pairs
together.
-/

namespace EntityQuery.Json

open Text

def isJsonBlank (c : Char) : Bool :=
  c = ' ' || c = '\n' || c = '\t' || c = '\r'

def skipBlanks (cs : List Char) : List Char :=
  cs.dropWhile isJsonBlank

/-! ## Strings -/

/-- A character of a string, or a UTF-16 unit written as a `\u` escape. -/
inductive Piece
  | char (c : Char)
  | unit (n : Nat)
  deriving DecidableEq, Repr

def simpleEscape? : Char → Option Char
  | '"' => some '"'
  | '\\' => some '\\'
  | '/' => some '/'
  | 'b' => some '\x08'
  | 'f' => some '\x0c'
  | 'n' => some '\n'
  | 'r' => some '\r'
  | 't' => some '\t'
  | _ => none

/-- Reads the pieces of a string up to its closing quote. -/
def scanPieces : List Char → Option (List Piece × List Char)
  | [] => none
  | '"' :: rest => some ([], rest)
  | '\\' :: 'u' :: a :: b :: c :: d :: rest => do
    let n ← natOfHex? [a, b, c, d]
    let (pieces, rest) ← scanPieces rest
    some (.unit n :: pieces, rest)
  | '\\' :: c :: rest => do
    let c ← simpleEscape? c
    let (pieces, rest) ← scanPieces rest
    some (.char c :: pieces, rest)
  | c :: rest =>
    if c.toNat < 0x20 then none
    else do
      let (pieces, rest) ← scanPieces rest
      some (.char c :: pieces, rest)

/-- Whether a unit is the first half of a surrogate pair. -/
def isHighSurrogate (n : Nat) : Bool :=
  0xD800 ≤ n && n < 0xDC00

/-- Whether a unit is the second half of a surrogate pair. -/
def isLowSurrogate (n : Nat) : Bool :=
  0xDC00 ≤ n && n < 0xE000

/-- The text of pieces in which every half of a surrogate pair has its other half. -/
def textOfPieces? : List Piece → Option (List Char)
  | [] => some []
  | .char c :: rest => (textOfPieces? rest).map (c :: ·)
  | .unit n :: rest =>
    if isHighSurrogate n then
      match rest with
      | .unit m :: rest =>
        if isLowSurrogate m then
          let c := Char.ofNat (0x10000 + (n - 0xD800) * 0x400 + (m - 0xDC00))
          (textOfPieces? rest).map (c :: ·)
        else none
      | _ => none
    else if isLowSurrogate n then none
    else (textOfPieces? rest).map (Char.ofNat n :: ·)

/-- Reads a string behind its opening quote. -/
def scanString (cs : List Char) : Option (Option String × List Char) :=
  (scanPieces cs).map fun (pieces, rest) => ((textOfPieces? pieces).map String.ofList, rest)

/-! ## Numbers -/

def scanSomeDigits (cs : List Char) : Option (List Char × List Char) :=
  let (digits, rest) := scanDigits cs
  if digits.isEmpty then none else some (digits, rest)

/-- Reads a whole number with no needless zero in front. -/
def scanWhole : List Char → Option (List Char × List Char)
  | '0' :: rest => if (scanDigits rest).1.isEmpty then some (['0'], rest) else none
  | cs => scanSomeDigits cs

def scanFractionPart : List Char → Option (Option (List Char) × List Char)
  | '.' :: rest => (scanSomeDigits rest).map fun (digits, rest) => (some digits, rest)
  | cs => some (none, cs)

def scanExponentPart : List Char → Option (Option (Bool × List Char) × List Char)
  | [] => some (none, [])
  | mark :: rest =>
    if mark = 'e' || mark = 'E' then
      let (negative, rest) := match rest with
        | '-' :: rest => (true, rest)
        | '+' :: rest => (false, rest)
        | rest => (false, rest)
      (scanSomeDigits rest).map fun (digits, rest) => (some (negative, digits), rest)
    else some (none, mark :: rest)

def scanUnsigned (negative : Bool) (cs : List Char) : Option (NumberLiteral × List Char) := do
  let (whole, cs) ← scanWhole cs
  let (fraction, cs) ← scanFractionPart cs
  let (exponent, cs) ← scanExponentPart cs
  some (⟨negative, whole, fraction, exponent⟩, cs)

def scanLiteral : List Char → Option (NumberLiteral × List Char)
  | '-' :: rest => scanUnsigned true rest
  | cs => scanUnsigned false cs

/-! ## Values -/

mutual

/-- Reads a value, the fuel bounding how many values and parts of values are begun. -/
def scanValue : Nat → List Char → Option (Tree × List Char)
  | 0, _ => none
  | fuel + 1, cs =>
    match skipBlanks cs with
    | '"' :: rest => (scanString rest).map fun (text, rest) => (.str text, rest)
    | '[' :: rest =>
      match skipBlanks rest with
      | ']' :: rest => some (.arr [], rest)
      | rest => (scanItems fuel rest).map fun (items, rest) => (.arr items, rest)
    | '\x7b' :: rest =>
      match skipBlanks rest with
      | '\x7d' :: rest => some (.obj [], rest)
      | rest => (scanMembers fuel rest).map fun (members, rest) => (.obj members, rest)
    | 't' :: rest => (scanWord "rue".toList rest).map fun rest => (.bool true, rest)
    | 'f' :: rest => (scanWord "alse".toList rest).map fun rest => (.bool false, rest)
    | 'n' :: rest => (scanWord "ull".toList rest).map fun rest => (.null, rest)
    | rest => (scanLiteral rest).map fun (literal, rest) => (.number literal, rest)

/-- Reads the values of an array up to its closing bracket. -/
def scanItems : Nat → List Char → Option (List Tree × List Char)
  | 0, _ => none
  | fuel + 1, cs => do
    let (item, rest) ← scanValue fuel cs
    match skipBlanks rest with
    | ',' :: rest => (scanItems fuel rest).map fun (items, rest) => (item :: items, rest)
    | ']' :: rest => some ([item], rest)
    | _ => none

/-- Reads the members of an object up to its closing brace. -/
def scanMembers : Nat → List Char → Option (List (Option String × Tree) × List Char)
  | 0, _ => none
  | fuel + 1, cs => do
    let rest ← scanChar '"' (skipBlanks cs)
    let (name, rest) ← scanString rest
    let rest ← scanChar ':' (skipBlanks rest)
    let (value, rest) ← scanValue fuel rest
    match skipBlanks rest with
    | ',' :: rest =>
      (scanMembers fuel rest).map fun (members, rest) => ((name, value) :: members, rest)
    | '\x7d' :: rest => some ([(name, value)], rest)
    | _ => none

end

/-- The tree of a text: one value and nothing else. -/
def Tree.read? (cs : List Char) : Option Tree := do
  let (tree, rest) ← scanValue (2 * cs.length + 2) cs
  if (skipBlanks rest).isEmpty then some tree else none

/-- How deep arrays and objects may be nested. -/
def greatestDepth : Nat := 127

def read? (text : String) : Option Json :=
  (Tree.read? text.toList).bind (Tree.value? greatestDepth)

end EntityQuery.Json
