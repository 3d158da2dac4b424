import EntityQuery.Proofs.Document.Regex
import EntityQuery.Proofs.FieldOrder
/-!
# Which documents a filter selects

How a document store reads the filters that predicates are turned into. Values compare
within one family alone: strings by their bytes, numbers as numbers whatever their width,
and booleans. A missing member counts as null where a value is asked to be equal to null,
and null has no order with any other value. A name is looked up as it stands, as columns have
no dots in their names. A conjunction of no filters is refused.

Filters that predicates are not turned into have no meaning here.
-/

namespace EntityQuery

namespace Bson

/-- What a value is compared by, in the family that it belongs to. -/
inductive Rank
  | bytes (bytes : List Nat)
  | number (x : WithBot (WithTop ℚ))
  | flag (b : Bool)

/-- The rank of a value. Of the kinds of values that filters hold, null alone has none. -/
def rank? : Bson → Option Rank
  | string s => some (.bytes (Text.encodeUtf8 s.toList))
  | int32 n => some (.number ((n.toInt : ℚ) : WithTop ℚ))
  | int64 n => some (.number ((n.toInt : ℚ) : WithTop ℚ))
  | double x => if x.isNaN then none else some (.number x.value)
  | boolean b => some (.flag b)
  | _ => none

def Rank.order? : Rank → Rank → Option Ordering
  | bytes a, bytes b => some (cmp a b)
  | number x, number y => some (cmp x y)
  | flag a, flag b => some (cmp a b)
  | _, _ => none

/-- The order of two values of one family. -/
def order? (a b : Bson) : Option Ordering :=
  a.rank?.bind fun x => b.rank?.bind fun y => x.order? y

end Bson

namespace DocumentStore

/-- Whether a member is equal to a value. Only a null or missing member is equal to null. -/
def equals (actual : Option Bson) : Bson → Bool
  | .null =>
    match actual with
    | none | some .null => true
    | _ => false
  | expected => (actual.bind (Bson.order? · expected)) == some .eq

/-- Whether a member stands in one of the accepted orders to a value. -/
def ordered (accepts : Ordering → Bool) (actual : Option Bson) (expected : Bson) : Bool :=
  (actual.bind (Bson.order? · expected)).any accepts

def passes (actual : Option Bson) (test : String × Bson) : Bool :=
  match test with
  | ("$eq", expected) => equals actual expected
  | ("$nin", .array excluded) => excluded.all fun value => !equals actual value
  | ("$gt", expected) => ordered (· == .gt) actual expected
  | ("$gte", expected) => ordered (· != .lt) actual expected
  | ("$lt", expected) => ordered (· == .lt) actual expected
  | ("$lte", expected) => ordered (· != .gt) actual expected
  | ("$regex", .string pattern) =>
    match actual with
    | some (.string text) => regexFound pattern text
    | _ => false
  | _ => false

mutual

/-- Whether a document satisfies every clause of a filter. -/
def satisfies (doc : Document) : Document → Bool
  | [] => true
  | (name, clause) :: rest => satisfiesClause doc name clause && satisfies doc rest

/-- Whether a document satisfies the clause of a name: a conjunction, or tests of a member. -/
def satisfiesClause (doc : Document) (name : String) : Bson → Bool
  | .array filters => name = "$and" && !filters.isEmpty && satisfiesAll doc filters
  | .document tests => tests.all (passes (Assoc.lookup name doc))
  | _ => false

def satisfiesAll (doc : Document) : List Bson → Bool
  | [] => true
  | .document filter :: rest => satisfies doc filter && satisfiesAll doc rest
  | _ :: _ => false

end

end DocumentStore

end EntityQuery
