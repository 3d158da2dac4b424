/-!
# Substrings

Containment of one text in another, at the start, at the end or anywhere. Texts
are compared character by character, which is the same as byte by byte because
UTF-8 never finds a character inside another one.
-/

namespace EntityQuery.Text

def startsWith (part text : List Char) : Bool :=
  part.isPrefixOf text

def endsWith (part text : List Char) : Bool :=
  part.isSuffixOf text

/-- Whether `part` begins `text` or one of its tails. -/
def occursIn (part : List Char) : List Char → Bool
  | [] => part.isEmpty
  | c :: rest => part.isPrefixOf (c :: rest) || occursIn part rest

end EntityQuery.Text
