import EntityQuery.Config.Yaml.Scalar.Folding
/-!
# Plain scalars

A plain scalar has no quotes. It ends in front of a colon with a blank behind it, a
comment, a document mark, a line that is not indented enough and, in a flow
collection, a mark of that collection.
-/

namespace EntityQuery.Yaml

def startsPlain (flow : Bool) : List Char → Bool
  | [] => false
  | c :: rest =>
    (!startsBlank (c :: rest) && !isIndicator c) || (c = '-' && !rest.head?.any isSpace) ||
      (!flow && (c = '?' || c = ':') && !startsBlank rest)

/-- Whether a colon touches a mark that ends its key, which no flow collection allows. -/
def startsClash : List Char → Bool
  | ':' :: c :: _ => isFlowMark c || c = '?'
  | _ => false

def endsPlain (flow : Bool) : List Char → Bool
  | [] => true
  | c :: rest =>
    startsBlank (c :: rest) || (c = ':' && startsBlank rest) || (flow && isFlowMark c)

/-- The piece of a plain scalar up to the next blank, backwards in front of `read`. -/
def plainPiece (flow : Bool) (read : List Char) : List Char → Option (List Char)
  | [] => some read.reverse
  | c :: rest =>
    if flow && startsClash (c :: rest) then none
    else if endsPlain flow (c :: rest) then some read.reverse
    else plainPiece flow (c :: read) rest

/-- A plain scalar: its text, where it ends, and whether a line ends in between. -/
structure PlainScalar where
  text : List Char
  after : Cursor
  endsLine : Bool := false

/-- Reads a plain scalar, whose later lines start in the column `indent` or right of it. The fuel is
more than what remains of the text. -/
def scanPlain (flow : Bool) (indent : Nat) : Nat → Cursor → Option PlainScalar
  | 0, _ => none
  | fuel + 1, c =>
    if c.atDocumentMark || c.isAt '#' then some ⟨[], c, false⟩
    else do
      let piece ← plainPiece flow [] c.rest
      let c := c.skip piece.length
      if !c.atBlank then some ⟨piece, c, false⟩
      else
        let (gap, next) ← Gap.scan indent (fuel + 1) {} c
        if !flow && next.column < indent then some ⟨piece, next, gap.broken⟩
        else
          let more ← scanPlain flow indent fuel next
          if more.text.isEmpty then some ⟨piece, more.after, gap.broken⟩
          else some { more with text := piece ++ gap.text ++ more.text }

end EntityQuery.Yaml
