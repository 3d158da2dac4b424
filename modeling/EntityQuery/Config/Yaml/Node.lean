import EntityQuery.Config.Yaml.Token
/-!
# YAML nodes

What a YAML document denotes: scalars, sequences and mappings. Mappings keep
repeated keys. A scalar remembers how it was written, since that decides whether it
can be a number or nothing.

A node may carry a number by which references stand for it. References stay in the
tree, because a node may refer to a collection that it is part of.
-/

namespace EntityQuery.Yaml

inductive Node
  | scalar (style : Style) (tag : Option (List Char)) (text : List Char)
  | sequence (items : List Node)
  | mapping (pairs : List (Node × Node))
  /-- A node that references stand for. -/
  | numbered (number : Nat) (node : Node)
  | reference (number : Nat)
  deriving Inhabited

namespace Node

def empty : Node :=
  scalar .plain none []

/-- An absent value may still have a tag. -/
def isEmpty : Node → Bool
  | scalar .plain _ [] => true
  | _ => false

/-- The text of a scalar of any style. -/
def text? : Node → Option String
  | scalar _ _ text => some (String.ofList text)
  | _ => none

def bare : Node → Node
  | numbered _ node => node
  | node => node

/-- The numbered nodes inside a node, in the order of the text. -/
def targets : Node → List (Nat × Node)
  | scalar _ _ _ => []
  | sequence items => targetsOfItems items
  | mapping pairs => targetsOfPairs pairs
  | numbered number node => (number, node) :: node.targets
  | reference _ => []
where
  targetsOfItems : List Node → List (Nat × Node)
    | [] => []
    | item :: rest => item.targets ++ targetsOfItems rest
  targetsOfPairs : List (Node × Node) → List (Nat × Node)
    | [] => []
    | (key, value) :: rest => key.targets ++ value.targets ++ targetsOfPairs rest

end Node

/-- A document is its root, with the numbered nodes inside. -/
structure Document where
  root : Node

namespace Document

def empty : Document :=
  ⟨.empty⟩

/-- What a node of a document stands for. Of several nodes with one number a reference stands for
the last. -/
def resolve (d : Document) : Node → Node
  | .reference number =>
    match d.root.targets.reverse.find? fun target => target.1 == number with
    | some (_, node) => node
    | none => .reference number
  | node => node.bare

end Document

end EntityQuery.Yaml
