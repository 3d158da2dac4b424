import EntityQuery.Config.Yaml.Character
/-!
# Cursors

A cursor is what remains of a text and where in the text that is. The line and the
column decide what belongs together, and the offset limits how far from its start
a key may end.
-/

namespace EntityQuery.Yaml

/-- What remains of a text, and its place. -/
structure Cursor where
  rest : List Char
  /-- How many characters stand before it. -/
  offset : Nat := 0
  line : Nat := 0
  column : Nat := 0

namespace Cursor

/-- Moves over `n` characters of one line. -/
def skip (n : Nat) (c : Cursor) : Cursor :=
  { c with rest := c.rest.drop n, offset := c.offset + n, column := c.column + n }

/-- Moves over one character of a line. -/
def next (c : Cursor) : Cursor :=
  c.skip 1

/-- The longest run of a line with characters of a class, and the cursor behind it. -/
def span (p : Char → Bool) (c : Cursor) : List Char × Cursor :=
  let run := c.rest.takeWhile p
  (run, c.skip run.length)

/-- The start of the next line, behind a line break of `width` characters. -/
def newLine (width : Nat) (c : Cursor) : Cursor :=
  { rest := c.rest.drop width, offset := c.offset + width, line := c.line + 1, column := 0 }

/-- Reads a line break, if there is one. All but the separators read as a line feed. -/
def readBreak (c : Cursor) : List Char × Cursor :=
  match c.rest with
  | '\r' :: '\n' :: _ => (['\n'], c.newLine 2)
  | d :: _ =>
    if isSeparator d then ([d], c.newLine 1)
    else if isBreak d then (['\n'], c.newLine 1)
    else ([], c)
  | [] => ([], c)

def atEnd (c : Cursor) : Bool :=
  c.rest.isEmpty

def isAt (d : Char) (c : Cursor) : Bool :=
  c.rest.head? = some d

def atBreak (c : Cursor) : Bool :=
  c.rest.head?.any isBreak

/-- Whether a blank or a line break comes next. -/
def atBlank (c : Cursor) : Bool :=
  !c.atEnd && startsBlank c.rest

/-- Whether a line starts here with three times the given character and nothing attached to it. -/
def atMark (mark : Char) (c : Cursor) : Bool :=
  match c.column, c.rest with
  | 0, x :: y :: z :: rest => x = mark && y = mark && z = mark && startsBlank rest
  | _, _ => false

/-- Whether a mark of the start or the end of a document stands here. -/
def atDocumentMark (c : Cursor) : Bool :=
  c.atMark '-' || c.atMark '.'

/-- Moves over blanks and a comment. -/
def skipComment (c : Cursor) : Cursor :=
  let c := (c.span isSpace).2
  if c.isAt '#' then (c.span fun d => !isBreak d).2 else c

end Cursor

end EntityQuery.Yaml
