import EntityQuery.Config.Yaml.Cursor
import EntityQuery.Config.Yaml.Token
import EntityQuery.Text.Digits
/-!
# Tags, anchors and directives

A tag names the type of a node: whole in angle brackets, or as a suffix to a handle
such as `!!` that a directive in front of the document may give a meaning. An anchor
names a node, and an alias stands for the node of that name.

Escapes in a tag denote the octets of a text; the octets beyond ASCII stand for
themselves here, since tags are only compared with tags in ASCII.
-/

namespace EntityQuery.Yaml

/-- Reads an anchor or an alias behind its mark. -/
def scanName (c : Cursor) : Option (List Char × Cursor) :=
  let (name, c) := c.span isWordChar
  let ends := startsBlank c.rest || c.rest.head?.any (· ∈ "?:,]\x7d%@\x60".toList)
  if name.isEmpty || !ends then none else some (name, c)

/-! ## Tags -/

def readOctet (c : Cursor) : Option (Nat × Cursor) :=
  match c.rest with
  | '%' :: x :: y :: _ => do
    let high ← Text.hexValue? x
    let low ← Text.hexValue? y
    some (16 * high + low, c.skip 3)
  | _ => none

/-- How many octets a character has whose first octet is the given one. -/
def octetCount? (first : Nat) : Option Nat :=
  if first < 0x80 then some 1
  else if 0xC0 ≤ first && first < 0xE0 then some 2
  else if 0xE0 ≤ first && first < 0xF0 then some 3
  else if 0xF0 ≤ first && first < 0xF8 then some 4
  else none

def readTrailing : Nat → Cursor → Option (List Char × Cursor)
  | 0, c => some ([], c)
  | count + 1, c => do
    let (octet, c) ← readOctet c
    if octet < 0x80 || 0xC0 ≤ octet then none
    else
      let (more, c) ← readTrailing count c
      some (Char.ofNat octet :: more, c)

def readEscaped (c : Cursor) : Option (List Char × Cursor) := do
  let (first, c) ← readOctet c
  let count ← octetCount? first
  let (more, c) ← readTrailing (count - 1) c
  some (Char.ofNat first :: more, c)

/-- Reads the characters of a tag, escapes included. -/
def scanTagChars (bracketed : Bool) : Nat → Cursor → Option (List Char × Cursor)
  | 0, _ => none
  | fuel + 1, c =>
    match c.rest with
    | d :: _ =>
      if !isTagChar bracketed d then some ([], c)
      else do
        let (first, c) ← if d = '%' then readEscaped c else some ([d], c.next)
        let (more, c) ← scanTagChars bracketed fuel c
        some (first ++ more, c)
    | [] => some ([], c)

/-- A tag ends at its first null character. -/
def untilNull (cs : List Char) : List Char :=
  cs.takeWhile (· ≠ '\x00')

/-- Reads a tag, or the rest of one of which `head` has been read. Something has to be
there. The fuel is more than what remains of the text. -/
def scanTagText (bracketed : Bool) (head : List Char) (fuel : Nat) (c : Cursor) :
    Option (List Char × Cursor) := do
  let (text, last) ← scanTagChars bracketed fuel c
  if head.isEmpty && last.offset = c.offset then none
  else some (untilNull (head.drop 1 ++ text), last)

/-- Reads what may be a handle: an exclamation mark, a word, and an exclamation mark if there is
one. -/
def scanHandle (c : Cursor) : Option (List Char × Cursor) :=
  if !c.isAt '!' then none
  else
    let (word, c) := c.next.span isWordChar
    if c.isAt '!' then some ('!' :: word ++ ['!'], c.next) else some ('!' :: word, c)

/-- Whether a text is a handle with an exclamation mark at both ends. -/
def isNamedHandle (cs : List Char) : Bool :=
  1 < cs.length && cs.getLast? = some '!'

def scanTagName (fuel : Nat) (c : Cursor) : Option (TagName × Cursor) := do
  if c.next.isAt '<' then
    let (suffix, c) ← scanTagText true [] fuel (c.skip 2)
    if c.isAt '>' then some (⟨[], suffix⟩, c.next) else none
  else
    let (handle, c) ← scanHandle c
    if isNamedHandle handle then
      let (suffix, c) ← scanTagText false [] fuel c
      some (⟨handle, suffix⟩, c)
    else
      let (suffix, c) ← scanTagText false handle fuel c
      some (if suffix.isEmpty then ⟨[], ['!']⟩ else ⟨['!'], suffix⟩, c)

/-- Reads a tag at its mark. A blank follows it or, in a flow collection, a comma. -/
def scanTag (flow : Bool) (fuel : Nat) (c : Cursor) : Option (TagName × Cursor) := do
  let (name, c) ← scanTagName fuel c
  if startsBlank c.rest || (flow && c.isAt ',') then some (name, c) else none

/-! ## Directives -/

/-- Reads a part of a version, which has at most nine digits. -/
def scanVersionPart (c : Cursor) : Option (Nat × Cursor) :=
  let (digits, c) := c.span Text.isDigit
  if digits.isEmpty || 9 < digits.length then none else some (Text.natOfDigits digits, c)

def scanVersion (c : Cursor) : Option (Token × Cursor) := do
  let (major, c) ← scanVersionPart (c.span isSpace).2
  if !c.isAt '.' then none
  else
    let (minor, c) ← scanVersionPart c.next
    some (.version major minor, c)

/-- Reads a handle and what it stands for. -/
def scanMeaning (fuel : Nat) (c : Cursor) : Option (Token × Cursor) := do
  let (handle, c) ← scanHandle (c.span isSpace).2
  if !(handle = ['!'] || isNamedHandle handle) || !c.rest.head?.any isSpace then none
  else
    let (meaning, c) ← scanTagText true [] fuel (c.span isSpace).2
    if startsBlank c.rest then some (.handle handle meaning, c) else none

/-- Reads a directive behind its mark, with the line break that ends it. -/
def scanDirective (fuel : Nat) (c : Cursor) : Option (Token × Cursor) := do
  let (name, c) := c.span isWordChar
  if !startsBlank c.rest then none
  else
    let (token, c) ←
      if name = "YAML".toList then scanVersion c
      else if name = "TAG".toList then scanMeaning fuel c
      else none
    let c := c.skipComment
    if c.atEnd || c.atBreak then some (token, c.readBreak.2) else none

end EntityQuery.Yaml
