import EntityQuery.Config.Yaml.Cursor
import EntityQuery.Text.Digits
/-!
# Block scalars

A block scalar is a header and, below it, lines that all start in one column. A
literal one keeps its line breaks; a folded one joins lines that start with text.
The line breaks behind the last line are kept as the header says.
-/

namespace EntityQuery.Yaml

/-- What becomes of the line breaks at the end of a block scalar. -/
inductive Chomping
  | strip
  | clip
  | keep
  deriving DecidableEq

/-- How a block scalar is to be read. -/
structure BlockHeader where
  chomping : Chomping := .clip
  /-- How far its lines are indented, if the header says so. -/
  width? : Option Nat := none

def chomping? (c : Char) : Option Chomping :=
  if c = '+' then some .keep else if c = '-' then some .strip else none

def readChomping (c : Cursor) : Option Chomping × Cursor :=
  match c.rest.head?.bind chomping? with
  | some chomping => (some chomping, c.next)
  | none => (none, c)

/-- Reads an indentation digit, if there is one. It is not zero. -/
def readWidth (c : Cursor) : Option (Option Nat × Cursor) :=
  match c.rest with
  | d :: _ =>
    if d = '0' then none
    else if Text.isDigit d then some (some (Text.digitValue d), c.next)
    else some (none, c)
  | [] => some (none, c)

/-- Reads the marks of a header, in either order, and the line break behind it. -/
def BlockHeader.read (c : Cursor) : Option (BlockHeader × Cursor) := do
  let (before?, c) := readChomping c
  let (width?, c) ← readWidth c
  let (after?, c) :=
    if before?.isNone && width?.isSome then readChomping c else (none, c)
  let c := c.skipComment
  if c.atEnd || c.atBreak then
    some (⟨(before? <|> after?).getD .clip, width?⟩, c.readBreak.2)
  else none

/-- Blank lines of a block scalar: their line breaks, how far the furthest of them is indented, and
the cursor at the first character that is no indentation. -/
structure BlankLines where
  breaks : List Char
  furthest : Nat
  after : Cursor

/-- Reads blank lines. The indentation ends in front of the column `width?`, if that is known; no
tab may stand there. -/
def BlankLines.read (width? : Option Nat) : Nat → BlankLines → Option BlankLines
  | 0, _ => none
  | fuel + 1, b =>
    let spaces := b.after.rest.takeWhile (· = ' ')
    let count := match width? with
      | some width => min spaces.length (width - b.after.column)
      | none => spaces.length
    let c := b.after.skip count
    let b := { b with after := c, furthest := max b.furthest c.column }
    if c.isAt '\t' && width?.all (c.column < ·) then none
    else if c.atBreak then
      let (ending, next) := c.readBreak
      read width? fuel { b with breaks := b.breaks ++ ending, after := next }
    else some b

/-- The text of a block scalar so far, backwards, and the line breaks that may follow it. -/
structure BlockText where
  read : List Char := []
  /-- The line break that ends the last line. -/
  last : List Char := []
  /-- The line breaks of the blank lines behind it. -/
  blank : List Char
  /-- Whether the last line starts with a blank. -/
  spaced : Bool := false

/-- Adds a line. Folding joins it to the last one if both start with text. -/
def BlockText.add (folded : Bool) (line ending : List Char) (t : BlockText) : BlockText :=
  let spaced := line.head?.any isSpace
  let gap :=
    if folded && t.last = ['\n'] && !t.spaced && !spaced then
      if t.blank.isEmpty then [' '] else t.blank
    else t.last ++ t.blank
  { read := line.reverseAux (gap.reverseAux t.read), last := ending, blank := [], spaced }

def BlockText.finish (chomping : Chomping) (t : BlockText) : List Char :=
  t.read.reverse ++ match chomping with
    | .strip => []
    | .clip => t.last
    | .keep => t.last ++ t.blank

/-- Reads the lines that start in the column `width`. -/
def scanLines (folded : Bool) (width : Nat) : Nat → BlockText → Cursor →
    Option (BlockText × Cursor)
  | 0, _, _ => none
  | fuel + 1, t, c =>
    if c.column = width && !c.atEnd then do
      let (line, c) := c.span fun d => !isBreak d
      let (ending, c) := c.readBreak
      let blank ← BlankLines.read (some width) (fuel + 1) ⟨[], 0, c⟩
      let t := { t.add folded line ending with blank := blank.breaks }
      scanLines folded width fuel t blank.after
    else some (t, c)

/-- Reads a block scalar behind its mark, inside a collection in the column `indent`, which is
negative outside of all collections. The fuel is more than what remains of the text. -/
def scanBlock (folded : Bool) (indent : Int) (fuel : Nat) (c : Cursor) :
    Option (List Char × Cursor) := do
  let (header, c) ← BlockHeader.read c
  let least := (indent + 1).toNat
  let width? := header.width?.map (indent.toNat + ·)
  let blank ← BlankLines.read width? fuel ⟨[], 0, c⟩
  let width := width?.getD (max blank.furthest (max least 1))
  let (t, last) ← scanLines folded width fuel { blank := blank.breaks } blank.after
  some (t.finish header.chomping, last)

end EntityQuery.Yaml
