import EntityQuery.Config.Yaml.Scalar.Folding
import EntityQuery.Text.Digits
/-!
# Quoted scalars

In single quotes a quote is written twice, and everything else stands for itself. In
double quotes a backslash starts an escape, and one at the end of a line joins it to
the next. No document mark may stand at the start of a line inside quotes.
-/

namespace EntityQuery.Yaml

inductive Quote
  | single
  | double
  deriving DecidableEq

/-- The character that begins and ends a quoted scalar. -/
def Quote.mark : Quote → Char
  | single => '\''
  | double => '"'

def simpleEscape? : Char → Option Nat
  | '0' => some 0
  | 'a' => some 7
  | 'b' => some 8
  | 't' => some 9
  | '\t' => some 9
  | 'n' => some 10
  | 'v' => some 11
  | 'f' => some 12
  | 'r' => some 13
  | 'e' => some 27
  | ' ' => some 32
  | '"' => some 34
  | '/' => some 47
  | '\\' => some 92
  | 'N' => some 0x85
  | '_' => some 0xA0
  | 'L' => some 0x2028
  | 'P' => some 0x2029
  | _ => none

/-- How many hexadecimal digits follow an escape. -/
def hexWidth? : Char → Option Nat
  | 'x' => some 2
  | 'u' => some 4
  | 'U' => some 8
  | _ => none

/-- The character that an escape stands for, and how long the escape is behind its backslash. -/
def readEscape : List Char → Option (Char × Nat)
  | [] => none
  | mark :: rest =>
    match hexWidth? mark with
    | some width => do
      let digits := rest.take width
      let n ← Text.natOfHex? digits
      if digits.length = width ∧ n.isValidChar then some (Char.ofNat n, width + 1) else none
    | none => (simpleEscape? mark).map fun n => (Char.ofNat n, 1)

/-- A piece of a quoted scalar, and whether an escaped line break ended it. -/
structure QuotedPiece where
  text : List Char
  after : Cursor
  joined : Bool := false

/-- Reads up to the next blank or the closing quote, backwards in front of `read`. -/
def quotedPiece (q : Quote) : Nat → List Char → Cursor → Option QuotedPiece
  | 0, _, _ => none
  | fuel + 1, read, c =>
    match c.rest with
    | [] => some ⟨read.reverse, c, false⟩
    | d :: rest =>
      if startsBlank (d :: rest) then some ⟨read.reverse, c, false⟩
      else if d = q.mark then
        if q = .single && rest.head? = some d then quotedPiece q fuel (d :: read) (c.skip 2)
        else some ⟨read.reverse, c, false⟩
      else if q = .double && d = '\\' then
        if c.next.atBreak then some ⟨read.reverse, c.next.readBreak.2, true⟩
        else do
          let (e, width) ← readEscape rest
          quotedPiece q fuel (e :: read) (c.skip (width + 1))
      else quotedPiece q fuel (d :: read) c.next

/-- Reads the rest of a scalar behind its opening quote. The fuel is more than what remains of the
text. -/
def scanQuoted (q : Quote) : Nat → Cursor → Option (List Char × Cursor)
  | 0, _ => none
  | fuel + 1, c =>
    if c.atDocumentMark || c.atEnd then none
    else do
      let piece ← quotedPiece q (fuel + 1) [] c
      if piece.after.isAt q.mark then some (piece.text, piece.after.next)
      else
        let (gap, next) ← Gap.scan 0 (fuel + 1) { broken := piece.joined } piece.after
        let (more, last) ← scanQuoted q fuel next
        some (piece.text ++ gap.text ++ more, last)

end EntityQuery.Yaml
