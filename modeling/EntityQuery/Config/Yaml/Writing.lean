import EntityQuery.Config.Yaml.Character
import EntityQuery.Text.Digits
/-!
# Writing YAML scalars

A text in double quotes, in which everything that might end it or could not stand
there is escaped.
-/

namespace EntityQuery.Yaml

/-- A character as it stands in double quotes. -/
def writeChar (c : Char) : List Char :=
  if c = '"' || c = '\\' then ['\\', c]
  else if isPrintable c && c.toNat != 0x85 && !(0x2028 ≤ c.toNat && c.toNat ≤ 0x2029) &&
      0x20 ≤ c.toNat then [c]
  else '\\' :: 'U' :: Text.fixedHex 8 c.toNat

def writeQuoted (s : String) : String :=
  String.ofList ('"' :: s.toList.flatMap writeChar ++ ['"'])

end EntityQuery.Yaml
