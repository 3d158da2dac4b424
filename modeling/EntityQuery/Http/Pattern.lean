/-!
# Path patterns

A route answers the paths of its pattern: a text with a name in braces wherever any
segment may stand, and a name behind an asterisk for any remainder. Neither begins
at the very end of a path, so a remainder is never empty, and a segment is empty only
in front of a slash. A brace that is text, or belongs to a name, is written twice.

Several patterns may have a path in common. The one that is most specific where they
first differ is the one that counts.
-/

namespace EntityQuery.Http

inductive Part
  | char (c : Char)
  /-- The rest of a segment. -/
  | parameter
  /-- The rest of the path. -/
  | remainder
  deriving DecidableEq, Repr

namespace Part

/-- Reads the parts of a pattern, `named` telling whether a name is being read. -/
def read : Bool → List Char → List Part
  | _, [] => []
  | true, '\x7d' :: '\x7d' :: rest => read true rest
  | true, '\x7d' :: rest => read false rest
  | true, _ :: rest => read true rest
  | false, '\x7b' :: '\x7b' :: rest => char '\x7b' :: read false rest
  | false, '\x7d' :: '\x7d' :: rest => char '\x7d' :: read false rest
  | false, '\x7b' :: '*' :: rest => remainder :: read true rest
  | false, '\x7b' :: rest => parameter :: read true rest
  | false, c :: rest => char c :: read false rest

def fits : List Part → List Char → Bool
  | [], path => path.isEmpty
  | char c :: parts, path => path.head? = some c && fits parts (path.drop 1)
  | parameter :: parts, path => !path.isEmpty && fits parts (path.dropWhile (· ≠ '/'))
  | remainder :: _, path => !path.isEmpty

/-- How much a part leaves open. -/
def openness : Part → Nat
  | char _ => 0
  | parameter => 1
  | remainder => 2

/-- Whether the first of two patterns is more specific where they first differ. -/
def precedes : List Part → List Part → Bool
  | p :: ps, q :: qs => if p = q then precedes ps qs else p.openness < q.openness
  | _, _ => false

end Part

def patternOf (text : String) : List Part :=
  Part.read false text.toList

/-- A pattern without braces has one path. -/
theorem fits_map_char (text path : List Char) :
    Part.fits (text.map Part.char) path = decide (path = text) := by
  induction text generalizing path with
  | nil => cases path <;> rfl
  | cons c rest ih => cases path <;> simp [Part.fits, ih]

end EntityQuery.Http
