import EntityQuery.Config.Settings
import EntityQuery.Config.Yaml.Reading
import EntityQuery.Config.Yaml.Writing
import EntityQuery.Number.Integer
/-!
# Settings as YAML

A document with the sections `pagination`, `logging` and `server`. Sections and
settings may be missing or empty sections, other keys are ignored, and a key that
is used may stand only once.
-/

namespace EntityQuery.Settings

open Yaml

/-! ## Numbers -/

/-- Reads a signed number in a base, one digit at least. -/
def readInBase? (base : Nat) (negative : Bool) (cs : List Char) : Option Int64 :=
  if cs.isEmpty then none
  else do
    let n ← cs.foldlM (fun n c => do
      let digit ← Text.hexValue? c
      if digit < base then some (base * n + digit) else none) 0
    Integer.ofInt? (if negative then -(n : Int) else n)

/-- Whether digits start with a needless zero, which makes them a text. -/
def hasLeadingZero : List Char → Bool
  | '0' :: rest => !rest.isEmpty && rest.all Text.isDigit
  | _ => false

/-- A number behind its sign: in base 16, 8 or 2 behind a mark, or in base 10. -/
def readUnsigned? (negative : Bool) : List Char → Option Int64
  | '0' :: 'x' :: rest => readInBase? 16 negative rest
  | '0' :: 'o' :: rest => readInBase? 8 negative rest
  | '0' :: 'b' :: rest => readInBase? 2 negative rest
  | cs => if hasLeadingZero cs then none else readInBase? 10 negative cs

def readNumber? : List Char → Option Int64
  | '-' :: rest => readUnsigned? true rest
  | '+' :: rest => readUnsigned? false rest
  | cs => readUnsigned? false cs

def wholeNumberTag : List Char :=
  "tag:yaml.org,2002:int".toList

/-- A number, which is a plain scalar, or a literal one with the tag of whole numbers. -/
def numberOfNode? : Node → Option Int64
  | .scalar .plain _ text => readNumber? text
  | .scalar .literal tag text => if tag = some wholeNumberTag then readNumber? text else none
  | _ => none

/-! ## Sections -/

/-- The pairs of a mapping by the texts of its keys; the empty node is the empty mapping. The nodes
are those that stand for themselves in the document. -/
def pairsOfNode? (d : Yaml.Document) (node : Node) : Option (List (String × Node)) :=
  match d.resolve node with
  | .mapping pairs =>
    pairs.mapM fun (key, value) => (d.resolve key).text?.map fun k => (k, d.resolve value)
  | node => if node.isEmpty then some [] else none

/-- The value of a key that may be missing, with what it stands for then. -/
def valueOr (default : α) (read : Node → Option α) (name : String)
    (pairs : List (String × Node)) : Option α :=
  match pairs.filter fun pair => pair.1 == name with
  | [] => some default
  | [(_, value)] => read value
  | _ => none

def limitsOfNode? (d : Yaml.Document) (node : Node) : Option PageLimits := do
  let pairs ← pairsOfNode? d node
  let defaults : PageLimits := {}
  let defaultSize ← valueOr defaults.defaultSize numberOfNode? "default_page_size" pairs
  let maxSize ← valueOr defaults.maxSize numberOfNode? "max_page_size" pairs
  some { defaultSize, maxSize }

def levelOfNode? (d : Yaml.Document) (node : Node) : Option String := do
  let pairs ← pairsOfNode? d node
  let defaults : Settings := {}
  valueOr defaults.level Node.text? "level" pairs

def addressOfNode? (d : Yaml.Document) (node : Node) : Option SocketAddress := do
  let pairs ← pairsOfNode? d node
  let defaults : Settings := {}
  valueOr defaults.address (fun value => value.text?.bind SocketAddress.read?) "address" pairs

def ofDocument? (d : Yaml.Document) : Option Settings := do
  let pairs ← pairsOfNode? d d.root
  let defaults : Settings := {}
  let limits ← valueOr defaults.limits (limitsOfNode? d) "pagination" pairs
  let level ← valueOr defaults.level (levelOfNode? d) "logging" pairs
  let address ← valueOr defaults.address (addressOfNode? d) "server" pairs
  some { limits, level, address }

/-! ## Texts and files -/

/-- The settings of a text, not yet validated. -/
def parse (file : Option String) (text : String) : Except ConfigError Settings :=
  match (Yaml.read? text).bind fun document => ofDocument? (document.getD .empty) with
  | some settings => .ok settings
  | none => .error (.parse file "expected a mapping of settings")

def ofText (file : Option String) (text : String) : Except ConfigError Settings := do
  let settings ← parse file text
  settings.validate
  return settings

/-- The valid settings of a file, whose content is missing if it cannot be read. -/
def ofFile (file : String) : Option String → Except ConfigError Settings
  | none => .error (.io file)
  | some text => ofText (some file) text

def write (s : Settings) : String :=
  "pagination:\n  default_page_size: " ++ toString s.limits.defaultSize.toInt ++
    "\n  max_page_size: " ++ toString s.limits.maxSize.toInt ++
    "\nlogging:\n  level: " ++ Yaml.writeQuoted s.level ++
    "\nserver:\n  address: " ++ Yaml.writeQuoted s.address.write ++ "\n"

end EntityQuery.Settings
