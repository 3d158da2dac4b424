import EntityQuery.Assoc
import EntityQuery.Config.Yaml.Node
/-!
# Documents from tokens

The grammar of documents over tokens. An absent key, value or entry is the empty
node. Only a block collection may hold block collections, and the entries of a
sequence that is the value of a key may stand in the column of the key.

A name that is given to a node takes the count of the names so far as its number,
also when the name had a number before.
-/

namespace EntityQuery.Yaml

/-- The tokens that are left, and what the ones before them have declared. -/
structure Source where
  tokens : List Token
  /-- What the handles of tags stand for. -/
  handles : List (List Char × List Char) := []
  /-- The numbers of the names that nodes were given. -/
  numbers : List (List Char × Nat) := []

namespace Source

/-- The source behind its next token. -/
def next (s : Source) : Source :=
  { s with tokens := s.tokens.drop 1 }

/-- Whether the next token is one of the given ones. -/
def isAt (ts : List Token) (s : Source) : Bool :=
  s.tokens.head?.any (· ∈ ts)

/-! ## Names and tags of nodes -/

/-- What stands in front of the content of a node. -/
structure Properties where
  anchor? : Option (List Char) := none
  tag? : Option TagName := none

/-- Reads a name and a tag, in either order. -/
def properties (s : Source) : Properties × Source :=
  match s.tokens with
  | .anchor a :: .tag t :: rest => (⟨some a, some t⟩, { s with tokens := rest })
  | .anchor a :: rest => (⟨some a, none⟩, { s with tokens := rest })
  | .tag t :: .anchor a :: rest => (⟨some a, some t⟩, { s with tokens := rest })
  | .tag t :: rest => (⟨none, some t⟩, { s with tokens := rest })
  | _ => ({}, s)

/-- The whole tag, which is missing if nothing has been said about its handle. -/
def expand? (t : TagName) (s : Source) : Option (List Char) :=
  if t.handle.isEmpty then some t.suffix
  else (Assoc.lookup t.handle s.handles).map (· ++ t.suffix)

def number (name : List Char) (s : Source) : Nat × Source :=
  (s.numbers.length, { s with numbers := Assoc.insert name s.numbers.length s.numbers })

/-- The tag of a scalar. An exclamation mark alone is none. -/
def scalarTag (tag? : Option (List Char)) : Option (List Char) :=
  if tag? = some ['!'] then none else tag?

/-! ## Nodes -/

mutual

/-- Reads a node. Block collections may stand there if `block` says so, and entries without a
sequence around them if `entries` does. -/
def node (block entries : Bool) : Nat → Source → Option (Node × Source)
  | 0, _ => none
  | fuel + 1, s =>
    match s.tokens with
    | .reference name :: _ =>
      (Assoc.lookup name s.numbers).map fun number => (.reference number, s.next)
    | _ => do
      let (p, s) := s.properties
      let tag? ← match p.tag? with
        | some t => (s.expand? t).map some
        | none => some none
      let present := p.anchor?.isSome || p.tag?.isSome
      match p.anchor? with
      | some name =>
        let (number, s) := s.number name
        (content block entries present tag? fuel s).map fun (n, s) => (.numbered number n, s)
      | none => content block entries present tag? fuel s

/-- Reads what stands in a node. Nothing may stand there if the node is `present` without it. -/
def content (block entries present : Bool) (tag? : Option (List Char)) :
    Nat → Source → Option (Node × Source)
  | 0, _ => none
  | fuel + 1, s =>
    match s.tokens with
    | .scalar style text :: _ => some (.scalar style (scalarTag tag?) text, s.next)
    | .flowSequence :: _ =>
      (flowItems true fuel s.next).map fun (items, s) => (.sequence items, s)
    | .flowMapping :: _ =>
      (flowPairs true fuel s.next).map fun (pairs, s) => (.mapping pairs, s)
    | _ =>
      if entries && s.isAt [.blockEntry] then
        (looseItems fuel s).map fun (items, s) => (.sequence items, s)
      else if block && s.isAt [.blockSequence] then
        (blockItems fuel s.next).map fun (items, s) => (.sequence items, s)
      else if block && s.isAt [.blockMapping] then
        (blockPairs fuel s.next).map fun (pairs, s) => (.mapping pairs, s)
      else if present then some (.scalar .plain tag? [], s)
      else none

/-- Reads a node, unless one of the given tokens shows that it is absent. -/
def nodeUnless (absent : List Token) (block entries : Bool) :
    Nat → Source → Option (Node × Source)
  | 0, _ => none
  | fuel + 1, s => if s.isAt absent then some (.empty, s) else node block entries fuel s

/-- Reads the entries of a block sequence and its end. -/
def blockItems : Nat → Source → Option (List Node × Source)
  | 0, _ => none
  | fuel + 1, s =>
    if s.isAt [.blockEntry] then do
      let (item, s) ← nodeUnless [.blockEntry, .blockEnd] true false fuel s.next
      let (items, s) ← blockItems fuel s
      some (item :: items, s)
    else if s.isAt [.blockEnd] then some ([], s.next)
    else none

/-- Reads the entries of a block sequence that has no beginning and no end of its own. -/
def looseItems : Nat → Source → Option (List Node × Source)
  | 0, _ => none
  | fuel + 1, s =>
    if s.isAt [.blockEntry] then do
      let (item, s) ← nodeUnless [.blockEntry, .key, .value, .blockEnd] true false fuel s.next
      let (items, s) ← looseItems fuel s
      some (item :: items, s)
    else some ([], s)

/-- Reads the pairs of a block mapping and its end. -/
def blockPairs : Nat → Source → Option (List (Node × Node) × Source)
  | 0, _ => none
  | fuel + 1, s =>
    if s.isAt [.key] then do
      let (key, s) ← nodeUnless [.key, .value, .blockEnd] true true fuel s.next
      let (value, s) ←
        if s.isAt [.value] then nodeUnless [.key, .value, .blockEnd] true true fuel s.next
        else some (.empty, s)
      let (pairs, s) ← blockPairs fuel s
      some ((key, value) :: pairs, s)
    else if s.isAt [.blockEnd] then some ([], s.next)
    else none

/-- Reads the items of a flow sequence and its end. An item with the mark of a key is a mapping of
one pair; if its key is absent, the token that shows it is passed over. -/
def flowItems (first : Bool) : Nat → Source → Option (List Node × Source)
  | 0, _ => none
  | fuel + 1, s =>
    if s.isAt [.flowSequenceEnd] then some ([], s.next)
    else if !first && !s.isAt [.flowEntry] then none
    else
      let s := if first then s else s.next
      if s.isAt [.flowSequenceEnd] then some ([], s.next)
      else do
        let (item, s) ←
          if s.isAt [.key] then do
            let s := s.next
            let (key, s) ←
              if s.isAt [.value, .flowEntry, .flowSequenceEnd] then some (.empty, s.next)
              else node false false fuel s
            let (value, s) ←
              if s.isAt [.value] then
                nodeUnless [.flowEntry, .flowSequenceEnd] false false fuel s.next
              else some (.empty, s)
            some (.mapping [(key, value)], s)
          else node false false fuel s
        let (items, s) ← flowItems false fuel s
        some (item :: items, s)

/-- Reads the pairs of a flow mapping and its end. A node without the mark of a key is a key with
no value. -/
def flowPairs (first : Bool) : Nat → Source → Option (List (Node × Node) × Source)
  | 0, _ => none
  | fuel + 1, s =>
    if s.isAt [.flowMappingEnd] then some ([], s.next)
    else if !first && !s.isAt [.flowEntry] then none
    else
      let s := if first then s else s.next
      if s.isAt [.flowMappingEnd] then some ([], s.next)
      else do
        let (key, value, s) ←
          if s.isAt [.key] then do
            let (key, s) ←
              nodeUnless [.value, .flowEntry, .flowMappingEnd] false false fuel s.next
            let (value, s) ←
              if s.isAt [.value] then
                nodeUnless [.flowEntry, .flowMappingEnd] false false fuel s.next
              else some (.empty, s)
            some (key, value, s)
          else (node false false fuel s).map fun (key, s) => (key, .empty, s)
        let (pairs, s) ← flowPairs false fuel s
        some ((key, value) :: pairs, s)

end

/-! ## Documents -/

/-- Reads the directives in front of a document: one version at most, of YAML 1.1 or 1.2, and each
handle once. -/
def directives (versioned : Bool) (s : Source) : List Token → Option Source
  | .version major minor :: rest =>
    if !versioned && major = 1 && (minor = 1 || minor = 2) then directives true s rest else none
  | .handle name meaning :: rest =>
    if Assoc.contains name s.handles then none
    else directives versioned { s with handles := Assoc.insert name meaning s.handles } rest
  | tokens => some { s with tokens }

/-- Gives the two handles without directives their meanings. -/
def withDefaults (s : Source) : Source :=
  { s with
    handles := s.handles ++
      [(['!'], ['!']), (['!', '!'], "tag:yaml.org,2002:".toList)] }

/-- Whether the next token belongs to no document or to the beginning or the end of one. -/
def atBoundary (s : Source) : Bool :=
  match s.tokens with
  | [] => true
  | .version _ _ :: _ => true
  | .handle _ _ :: _ => true
  | _ => s.isAt [.documentStart, .documentEnd]

/-- Reads the root of a document. Where its start is marked, it may be absent. -/
def root (fuel : Nat) (s : Source) : Option (Node × Source) :=
  if s.atBoundary && !s.isAt [.documentEnd] then do
    let s ← s.directives false s.tokens
    if !s.isAt [.documentStart] then none
    else
      let s := s.next.withDefaults
      if s.atBoundary then some (.empty, s) else s.node true false fuel
  else s.withDefaults.node true false fuel

end Source

/-- The document of a list of tokens that holds at most one, which may be none. -/
def documentOf? (tokens : List Token) : Option (Option Document) :=
  if tokens.isEmpty then some none
  else do
    let (root, s) ← Source.root (4 * tokens.length + 4) { tokens }
    if s.tokens.all (· = .documentEnd) then some (some ⟨root⟩) else none

end EntityQuery.Yaml
