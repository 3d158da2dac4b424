import EntityQuery.Config.Yaml.Scalar.Block
import EntityQuery.Config.Yaml.Scalar.Plain
import EntityQuery.Config.Yaml.Scalar.Quoted
import EntityQuery.Config.Yaml.Tag
/-!
# The layout of a text

The tokens of a text follow from its columns. A key or an entry right of the
collections that are open begins a block collection in its column, and whatever
stands left of a block collection ends it. Inside brackets columns mean nothing.

A key needs no mark of its own. The place where one may have started is kept until
a colon comes, and the mark is put in there. Such a key stands on one line and ends
within 1024 characters; in the column of an open mapping nothing but a key may stand.
-/

namespace EntityQuery.Yaml

/-- A place where a key may have started. -/
structure KeyStart where
  place : Cursor
  /-- How many tokens stand before it. -/
  before : Nat
  /-- Whether nothing but a key may stand there. -/
  required : Bool

/-- Whether a key that started there may end at a cursor. -/
def KeyStart.reaches (k : KeyStart) (c : Cursor) : Bool :=
  k.place.line = c.line && c.offset ≤ k.place.offset + 1024

/-- A text while its tokens are read. -/
structure Layout where
  cursor : Cursor
  /-- More than the length of the text, which no loop over it needs to exceed. -/
  fuel : Nat
  /-- The tokens so far, the last one first. -/
  tokens : List Token := []
  count : Nat := 0
  /-- The column of the innermost open block collection; negative if there is none. -/
  indent : Int := -1
  /-- The columns of the collections around it. -/
  outerIndents : List Int := []
  /-- Whether a key may start at the cursor. -/
  keyAllowed : Bool := true
  /-- The place where the last key may have started, inside the innermost brackets. -/
  key? : Option KeyStart := none
  /-- The same for the brackets around them, one for each pair that is open. -/
  outerKeys : List (Option KeyStart) := []

namespace Layout

/-- Whether the cursor stands inside brackets. -/
def inFlow (l : Layout) : Bool :=
  !l.outerKeys.isEmpty

def add (t : Token) (l : Layout) : Layout :=
  { l with tokens := t :: l.tokens, count := l.count + 1 }

/-- Adds a token of `n` characters at the cursor. -/
def addMark (n : Nat) (t : Token) (l : Layout) : Layout :=
  { l with cursor := l.cursor.skip n }.add t

/-- Puts tokens, the last one first, behind the first `before` tokens. -/
def insert (before : Nat) (ts : List Token) (l : Layout) : Layout :=
  let behind := l.count - before
  { l with
    tokens := l.tokens.take behind ++ ts ++ l.tokens.drop behind
    count := l.count + ts.length }

/-! ## Between tokens -/

/-- Moves to the next token. A tab may not come where a key may start outside of brackets, and a
line break lets a key start there. -/
def toToken : Nat → Layout → Layout
  | 0, l => l
  | fuel + 1, l =>
    let c := if l.cursor.column = 0 && l.cursor.isAt byteOrderMark then l.cursor.next else l.cursor
    let tabs := l.inFlow || !l.keyAllowed
    let (_, c) := c.span fun d => d = ' ' || (tabs && d = '\t')
    let c := if c.isAt '#' then (c.span fun d => !isBreak d).2 else c
    if c.atBreak then
      toToken fuel
        { l with cursor := c.readBreak.2, keyAllowed := l.keyAllowed || !l.inFlow }
    else { l with cursor := c }

/-- Ends the block collections right of a column. -/
def closeBlocks (column : Int) : List Int → Layout → Layout
  | [], l => l
  | outer :: rest, l =>
    if l.indent ≤ column then l
    else closeBlocks column rest { l.add .blockEnd with indent := outer, outerIndents := rest }

/-- Ends the block collections right of a column, unless it is inside brackets. -/
def leaveBlocks (column : Int) (l : Layout) : Layout :=
  if l.inFlow then l else closeBlocks column l.outerIndents l

/-- Whether a block collection begins in a column. -/
def opens (column : Nat) (l : Layout) : Bool :=
  !l.inFlow && l.indent < column

/-- Makes a column the innermost one. -/
def enter (column : Nat) (l : Layout) : Layout :=
  { l with indent := column, outerIndents := l.indent :: l.outerIndents }

/-- Begins a block collection at the cursor, if one begins there. -/
def beginBlock (start : Token) (l : Layout) : Layout :=
  if l.opens l.cursor.column then (l.enter l.cursor.column).add start else l

/-! ## Keys -/

/-- Gives up the place of a key. Where a key is required that is an error. -/
def dropKey (l : Layout) : Option Layout :=
  if l.key?.any KeyStart.required then none else some { l with key? := none }

/-- Keeps the cursor as the place of a key, if one may start there. -/
def keepKey (l : Layout) : Option Layout :=
  if !l.keyAllowed then some l
  else do
    let l ← l.dropKey
    let required := !l.inFlow && l.indent = l.cursor.column
    some { l with key? := some ⟨l.cursor, l.count, required⟩ }

/-- Puts the mark of a key where it started, and in front of it the start of a mapping if one
begins there. -/
def markKey (k : KeyStart) (l : Layout) : Layout :=
  if l.opens k.place.column then
    (l.enter k.place.column).insert k.before [.key, .blockMapping]
  else l.insert k.before [.key]

/-! ## Tokens -/

/-- A directive or a document mark, which ends all block collections. -/
def endBlocks (l : Layout) : Option Layout :=
  (l.leaveBlocks (-1)).dropKey.map fun l => { l with keyAllowed := false }

def directive (l : Layout) : Option Layout := do
  let l ← l.endBlocks
  let (token, c) ← scanDirective l.fuel l.cursor.next
  some ({ l with cursor := c }.add token)

def documentMark (t : Token) (l : Layout) : Option Layout :=
  l.endBlocks.map (addMark 3 t)

def openFlow (t : Token) (l : Layout) : Option Layout := do
  let l ← l.keepKey
  some ({ l with key? := none, outerKeys := l.key? :: l.outerKeys, keyAllowed := true }.addMark 1 t)

def closeFlow (t : Token) (l : Layout) : Option Layout := do
  let l ← l.dropKey
  let (key?, outerKeys) := match l.outerKeys with
    | k :: rest => (k, rest)
    | [] => (none, [])
  some ({ l with key?, outerKeys, keyAllowed := false }.addMark 1 t)

def flowEntry (l : Layout) : Option Layout := do
  let l ← l.dropKey
  some ({ l with keyAllowed := true }.addMark 1 .flowEntry)

def blockEntry (l : Layout) : Option Layout := do
  if !l.inFlow && !l.keyAllowed then none
  else
    let l ← (l.beginBlock .blockSequence).dropKey
    some ({ l with keyAllowed := true }.addMark 1 .blockEntry)

/-- The mark of a key that need not be on one line. -/
def explicitKey (l : Layout) : Option Layout := do
  if !l.inFlow && !l.keyAllowed then none
  else
    let l ← (l.beginBlock .blockMapping).dropKey
    some ({ l with keyAllowed := !l.inFlow }.addMark 1 .key)

/-- A colon: behind a key without a mark, or behind one with a mark. -/
def value (l : Layout) : Option Layout :=
  let key? := l.key?.filter (·.reaches l.cursor)
  match key? with
  | some k => some ({ l.markKey k with key? := none, keyAllowed := false }.addMark 1 .value)
  | none =>
    if l.key?.any KeyStart.required || (!l.inFlow && !l.keyAllowed) then none
    else
      let l := l.beginBlock .blockMapping
      some ({ l with key? := none, keyAllowed := !l.inFlow }.addMark 1 .value)

/-- Something that stands in a node, where a key may start. -/
def content (scan : Layout → Option (Token × Cursor)) (l : Layout) : Option Layout := do
  let l ← l.keepKey
  let (t, c) ← scan l
  some ({ l with cursor := c, keyAllowed := false }.add t)

def plain (l : Layout) : Option Layout := do
  let l ← l.keepKey
  let s ← scanPlain l.inFlow (l.indent + 1).toNat l.fuel l.cursor
  some ({ l with cursor := s.after, keyAllowed := s.endsLine }.add (.scalar .plain s.text))

def quoted (q : Quote) : Layout → Option Layout :=
  content fun l =>
    (scanQuoted q l.fuel l.cursor.next).map fun (s, c) => (.scalar .quoted s, c)

def block (style : Style) (l : Layout) : Option Layout := do
  let l ← l.dropKey
  let (s, c) ← scanBlock (style = .folded) l.indent l.fuel l.cursor.next
  some ({ l with cursor := c, keyAllowed := true }.add (.scalar style s))

def anchor : Layout → Option Layout :=
  content fun l => (scanName l.cursor.next).map fun (s, c) => (.anchor s, c)

def reference : Layout → Option Layout :=
  content fun l => (scanName l.cursor.next).map fun (s, c) => (.reference s, c)

def tag : Layout → Option Layout :=
  content fun l => (scanTag l.inFlow l.fuel l.cursor).map fun (t, c) => (.tag t, c)

/-- Reads the token at the cursor, which is not at the end. -/
def readToken (l : Layout) : Option Layout :=
  let c := l.cursor
  let flow := l.inFlow
  let alone := startsBlank (c.rest.drop 1)
  if c.column = 0 && c.isAt '%' then l.directive
  else if c.atMark '-' then l.documentMark .documentStart
  else if c.atMark '.' then l.documentMark .documentEnd
  else if c.isAt '[' then l.openFlow .flowSequence
  else if c.isAt '\x7b' then l.openFlow .flowMapping
  else if c.isAt ']' then l.closeFlow .flowSequenceEnd
  else if c.isAt '\x7d' then l.closeFlow .flowMappingEnd
  else if c.isAt ',' then l.flowEntry
  else if c.isAt '-' && alone then l.blockEntry
  else if c.isAt '?' && (flow || alone) then l.explicitKey
  else if c.isAt ':' && (flow || alone) then l.value
  else if c.isAt '*' then l.reference
  else if c.isAt '&' then l.anchor
  else if c.isAt '!' then l.tag
  else if c.isAt '|' && !flow then l.block .literal
  else if c.isAt '>' && !flow then l.block .folded
  else if c.isAt '\'' then l.quoted .single
  else if c.isAt '"' then l.quoted .double
  else if startsPlain flow c.rest then l.plain
  else none

def run : Nat → Layout → Option Layout
  | 0, _ => none
  | fuel + 1, l =>
    let l := l.toToken l.fuel
    let l := l.leaveBlocks l.cursor.column
    if l.cursor.atEnd then l.endBlocks
    else l.readToken.bind (run fuel)

end Layout

def tokensOf? (cs : List Char) : Option (List Token) :=
  let fuel := cs.length + 1
  (Layout.run fuel { cursor := { rest := cs }, fuel }).map fun l => l.tokens.reverse

end EntityQuery.Yaml
