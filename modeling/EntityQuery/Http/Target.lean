/-!
# Request targets

What a request asks for: a path and a query string. A target is a path, or a whole
address with a scheme and a host in front of the path. A host alone and an asterisk
have no path.
-/

namespace EntityQuery.Http

structure Target where
  path : List Char := []
  query : List Char := []
  deriving DecidableEq, Repr

namespace Target

/-- Parts a path from its query string, and drops the fragment. -/
def ofPath (cs : List Char) : Target :=
  let cs := cs.takeWhile (· ≠ '#')
  ⟨cs.takeWhile (· ≠ '?'), (cs.dropWhile (· ≠ '?')).drop 1⟩

def isSchemeChar (c : Char) : Bool :=
  c.isAlphanum || c ∈ ['+', '-', '.']

def afterHost? (cs : List Char) : Option (List Char) :=
  match cs.dropWhile isSchemeChar with
  | ':' :: '/' :: '/' :: rest => some (rest.dropWhile fun c => c ∉ ['/', '?', '#'])
  | _ => none

/-- Reads a target. The path of an address is never empty. -/
def read (cs : List Char) : Target :=
  if cs.head? = some '/' then ofPath cs
  else match afterHost? cs with
    | some rest =>
      let t := ofPath rest
      if t.path.isEmpty then { t with path := ['/'] } else t
    | none => {}

end Target

end EntityQuery.Http
