import EntityQuery.Config.Yaml.Cursor
/-!
# Line folding

Plain and quoted scalars may run over several lines. What stands between two pieces
of their text is a gap: blanks of one line stand for themselves, one line break for
a space, and each further line break for itself. The separators are kept in any
case, and blanks around line breaks are dropped.
-/

namespace EntityQuery.Yaml

/-- What stands between two pieces of text of a scalar. -/
structure Gap where
  /-- Whether a line ends in it. -/
  broken : Bool := false
  /-- The blanks of a gap within a line. -/
  blanks : List Char := []
  /-- The line break that ends the first line. -/
  first : List Char := []
  /-- The line breaks behind it. -/
  more : List Char := []

def Gap.text (g : Gap) : List Char :=
  if !g.broken then g.blanks
  else if g.first = ['\n'] then (if g.more.isEmpty then [' '] else g.more)
  else g.first ++ g.more

/-- Extends a gap by all blanks and line breaks that follow. A tab left of the column `indent` does
not indent a line and is refused there. -/
def Gap.scan (indent : Nat) : Nat → Gap → Cursor → Option (Gap × Cursor)
  | 0, _, _ => none
  | fuel + 1, g, c =>
    let (blanks, next) := c.span isSpace
    if g.broken && '\t' ∈ blanks.take (indent - c.column) then none
    else
      let g := if g.broken then g else { g with blanks }
      if next.atBreak then
        let (ending, next) := next.readBreak
        let g := if g.broken then { g with more := g.more ++ ending }
          else { g with broken := true, blanks := [], first := ending }
        scan indent fuel g next
      else some (g, next)

end EntityQuery.Yaml
