import EntityQuery.Config.Yaml.Layout
import EntityQuery.Config.Yaml.Structure
/-!
# Reading YAML

A text is read in two steps: into tokens by its layout, and from tokens into a
document. A text that holds no document is no error, one that holds two is.
-/

namespace EntityQuery.Yaml

/-- The document of a text that holds at most one, which may be none. -/
def read? (text : String) : Option (Option Document) :=
  let cs := text.toList
  if cs.all isPrintable then (tokensOf? cs).bind documentOf? else none

def readScalar? (text : String) : Option String := do
  let document ← read? text
  let d ← document
  (d.resolve d.root).text?

end EntityQuery.Yaml
