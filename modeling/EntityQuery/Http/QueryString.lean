import EntityQuery.Listing.Params
import EntityQuery.Text.Utf8
/-!
# Query strings

Names and values with `=` between them and `&` between the pairs, in which a plus
sign stands for a space and `%` with two hexadecimal digits for a byte. The bytes
are read as UTF-8 after all of this.

The parameters of a listing are taken from the pairs in their order, and the first
pair that cannot be taken is reported.
-/

namespace EntityQuery.Http

open Text

/-! ## Pairs -/

/-- The bytes of a text in which `%` and two hexadecimal digits stand for one. -/
def percentDecode : List Char → List Nat
  | [] => []
  | '%' :: high :: low :: rest =>
    match natOfHex? [high, low] with
    | some b => b :: percentDecode rest
    | none => encodeUtf8 ['%'] ++ percentDecode (high :: low :: rest)
  | c :: rest => encodeUtf8 [c] ++ percentDecode rest

/-- A name or value as it is meant. -/
def decodePart (cs : List Char) : String :=
  String.ofList (decodeUtf8 (percentDecode (cs.map fun c => if c = '+' then ' ' else c)))

/-- Splits at the first equals sign; without one the value is empty. -/
def splitPair (cs : List Char) : String × String :=
  (decodePart (cs.takeWhile (· ≠ '=')), decodePart ((cs.dropWhile (· ≠ '=')).drop 1))

/-- The pairs of a query string in their order; empty pieces are none. -/
def queryPairs (query : List Char) : List (String × String) :=
  ((query.splitOn '&').filter fun piece => !piece.isEmpty).map splitPair

/-! ## Parameters -/

def numberOfParam (name value : String) : Except String Int64 :=
  match Integer.read value.toList with
  | .ok n => .ok n
  | .error fault => .error (name ++ ": " ++ fault.message)

def directionOfParam (value : String) : Except String Direction :=
  match Direction.ofName? value with
  | some direction => .ok direction
  | none =>
    .error ("direction: unknown variant `" ++ value ++ "`, expected `ASC` or `DESC`")

def paramNames : List String :=
  ["page", "size", "direction", "sort", "filter"]

/-- Takes one pair; other names are passed over. -/
def takeParam (params : QueryParams) (name value : String) : Except String QueryParams :=
  match name with
  | "page" => (numberOfParam name value).map fun n => { params with page := n }
  | "size" => (numberOfParam name value).map fun n => { params with size := some n }
  | "direction" => (directionOfParam value).map fun d => { params with direction := some d }
  | "sort" => .ok { params with sort := some value }
  | "filter" => .ok { params with filter := some value }
  | _ => .ok params

/-- Takes pairs behind those with the names in `seen`; no parameter may be named twice. -/
def takeParams (params : QueryParams) (seen : List String) :
    List (String × String) → Except String QueryParams
  | [] => .ok params
  | (name, value) :: rest =>
    if name ∈ seen ∧ name ∈ paramNames then .error ("duplicate field `" ++ name ++ "`")
    else do
      let params ← takeParam params name value
      takeParams params (name :: seen) rest

def readParams (query : List Char) : Except ValidationError QueryParams :=
  match takeParams {} [] (queryPairs query) with
  | .ok params => .ok params
  | .error message =>
    .error (.invalidQuery ("Failed to deserialize query string: " ++ message))

end EntityQuery.Http
