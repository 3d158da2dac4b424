/-!
# Characters of YAML

The classes of characters that the reader of YAML tells apart. All of them but the
line breaks and the printable characters hold ASCII characters only.
-/

namespace EntityQuery.Yaml

def isPrintable (c : Char) : Bool :=
  let n := c.toNat
  n == 0x09 || n == 0x0A || n == 0x0D || (0x20 ≤ n && n ≤ 0x7E) || n == 0x85 ||
    (0xA0 ≤ n && n ≤ 0xD7FF) || (0xE000 ≤ n && n ≤ 0xFFFD) || 0x10000 ≤ n

/-- The mark that may begin a line without belonging to it. -/
def byteOrderMark : Char :=
  '\uFEFF'

/-- A blank within a line. -/
def isSpace (c : Char) : Bool :=
  c = ' ' || c = '\t'

/-- The line breaks that are read as themselves. -/
def isSeparator (c : Char) : Bool :=
  c = '\u2028' || c = '\u2029'

def isBreak (c : Char) : Bool :=
  c = '\n' || c = '\r' || c = '\x85' || isSeparator c

/-- Whether a text begins with a blank, a line break or its end. -/
def startsBlank : List Char → Bool
  | [] => true
  | c :: _ => isSpace c || isBreak c

def isWordChar (c : Char) : Bool :=
  c.isAlphanum || c = '_' || c = '-'

/-- The characters that part the entries of flow collections. -/
def isFlowMark (c : Char) : Bool :=
  c ∈ [',', '[', ']', '\x7b', '\x7d']

/-- The characters that start something else than a plain scalar. -/
def isIndicator (c : Char) : Bool :=
  isFlowMark c || c ∈ ['-', '?', ':', '#', '&', '*', '!', '|', '>', '\'', '"', '%', '@', '\x60']

/-- The characters of tags. A tag in angle brackets may also hold a comma and square brackets. -/
def isTagChar (bracketed : Bool) (c : Char) : Bool :=
  isWordChar c || c = '\'' || c ∈ ";/?:@&=+$.%!~*()".toList ||
    (bracketed && c ∈ [',', '[', ']'])

end EntityQuery.Yaml
