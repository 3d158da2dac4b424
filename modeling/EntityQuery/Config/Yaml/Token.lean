/-!
# Tokens of YAML

A text as a list of tokens: the marks of documents, the beginnings and ends of
collections, the marks of their entries, and what stands in a node. Block
collections have no brackets in the text; their beginnings and ends are tokens all
the same. The end of the list is the end of the text.
-/

namespace EntityQuery.Yaml

/-- How a scalar is written. -/
inductive Style
  | plain
  | quoted
  | literal
  | folded
  deriving DecidableEq

/-- A tag as it is written. Without a handle the suffix is the whole tag. -/
structure TagName where
  handle : List Char
  suffix : List Char
  deriving DecidableEq

inductive Token
  | version (major minor : Nat)
  /-- What a handle stands for in the tags of the next document. -/
  | handle (name meaning : List Char)
  | documentStart
  | documentEnd
  | blockSequence
  | blockMapping
  | blockEnd
  | flowSequence
  | flowSequenceEnd
  | flowMapping
  | flowMappingEnd
  | blockEntry
  | flowEntry
  | key
  | value
  | reference (name : List Char)
  | anchor (name : List Char)
  | tag (name : TagName)
  | scalar (style : Style) (text : List Char)
  deriving DecidableEq

end EntityQuery.Yaml
