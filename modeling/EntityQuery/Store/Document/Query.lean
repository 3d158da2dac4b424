import EntityQuery.Bson
import EntityQuery.Page
import EntityQuery.Predicate
import EntityQuery.Text.Escape
import EntityQuery.Time.Writing
/-!
# Queries of the document store

Predicates as filters over documents, and pages as the stages of an aggregation.
Texts are searched by regular expressions in which every special character is
escaped. A null or missing field satisfies no filter but the ones that ask for
null, so an unequal value is asked for as "neither the value nor null".

The database puts null below every other value. Each sort key is therefore
preceded by a helper flag that tells whether the field is null.
-/

namespace EntityQuery.DocumentStore

def memberName (field : String) : String :=
  if field = "id" then "_id" else field

/-- An instant as it is stored: of fixed width, so the order of texts is the order of time. -/
def writeInstant (t : Instant) : String :=
  String.ofList (t.write .nanoseconds)

def storedValue : FieldValue → Bson
  | .text s | .enum s => .string s
  | .integer n => .int64 n
  | .decimal x => .double x
  | .boolean b => .boolean b
  | .date d => .string (String.ofList d.write)
  | .dateTime t => .string (writeInstant t)
  | .null => .null

/-! ## Filters -/

/-- The characters with a meaning in regular expressions. -/
def isRegexSpecial (c : Char) : Bool :=
  c ∈ ['\\', '.', '+', '*', '?', '(', ')', '|', '[', ']', '\x7b', '\x7d', '^', '$', '#', '&', '-',
    '~']

/-- A regular expression that matches a text alone. -/
def escapeRegex (s : List Char) : String :=
  String.ofList (Text.escapeWith '\\' isRegexSpecial s)

def searchText : FieldValue → List Char
  | .dateTime t => (writeInstant t).toList
  | v => v.write

/-- What a filter asks of one member. -/
inductive Test
  | equals (value : Bson)
  /-- Neither the value nor null. -/
  | neitherNorNull (value : Bson)
  | greater (value : Bson)
  | greaterOrEqual (value : Bson)
  | less (value : Bson)
  | lessOrEqual (value : Bson)
  | regex (pattern : String)

inductive Filter
  | everything
  | member (name : String) (test : Test)
  | all (filters : List Filter)
  deriving Inhabited

def Test.ofComparison (op : Operator) (value : FieldValue) : Test :=
  let stored := storedValue value
  let pattern := escapeRegex (searchText value)
  match op with
  | .equal => equals stored
  | .notEqual => neitherNorNull stored
  | .greater => greater stored
  | .greaterOrEqual => greaterOrEqual stored
  | .less => less stored
  | .lessOrEqual => lessOrEqual stored
  | .contains => regex pattern
  | .startsWith => regex ("^" ++ pattern)
  | .endsWith => regex (pattern ++ "\\z")

namespace Filter

mutual

def ofPredicate : Predicate → Filter
  | .always => everything
  | .compare field op value => member (memberName field) (.ofComparison op value)
  | .all members => all (ofPredicates members)

def ofPredicates : List Predicate → List Filter
  | [] => []
  | p :: rest => ofPredicate p :: ofPredicates rest

end

end Filter

def Test.toDocument : Test → Document
  | equals value => [("$eq", value)]
  | neitherNorNull value => [("$nin", .array [value, .null])]
  | greater value => [("$gt", value)]
  | greaterOrEqual value => [("$gte", value)]
  | less value => [("$lt", value)]
  | lessOrEqual value => [("$lte", value)]
  | regex pattern => [("$regex", .string pattern)]

namespace Filter

mutual

def toDocument : Filter → Document
  | everything => []
  | member name test => [(name, .document test.toDocument)]
  | all filters => [("$and", .array (toDocuments filters))]

def toDocuments : List Filter → List Bson
  | [] => []
  | f :: rest => .document (toDocument f) :: toDocuments rest

end

end Filter

/-! ## Stages -/

inductive Stage
  | filter (filter : Filter)
  /-- Adds, under each name, 1 if the member of the other name is null or missing and 0 if not. -/
  | addNullFlags (flags : List (String × String))
  /-- Sorts by members, each ascending (1) or descending (-1). -/
  | sort (keys : List (String × Int32))
  | skip (count : Int64)
  | limit (count : Int64)
  /-- Removes members. -/
  | remove (names : List String)

def flagName (i : Nat) : String :=
  "__null_" ++ String.ofList (Text.natDigits i)

def directionSign : Direction → Int32
  | .ascending => 1
  | .descending => -1

def numbered (keys : List SortKey) : List (Nat × SortKey) :=
  (List.range keys.length).zip keys

/-- The helper flags of an order, each with the member it is about. -/
def nullFlags (keys : List SortKey) : List (String × String) :=
  (numbered keys).map fun (i, key) => (flagName i, memberName key.field)

def flaggedKeys (keys : List SortKey) : List (String × Int32) :=
  Assoc.ofList ((numbered keys).flatMap fun (i, key) =>
    [(flagName i, directionSign key.direction),
      (memberName key.field, directionSign key.direction)])

/-- The keys of an order, with the identifier last unless it is a key already. -/
def sortKeys (keys : List SortKey) : List (String × Int32) :=
  let flagged := flaggedKeys keys
  if Assoc.contains "_id" flagged then flagged else flagged ++ [("_id", 1)]

/-- The stages that order documents and cut a page out of them. -/
def pageStages (page : PageSpec) : List Stage :=
  [.addNullFlags (nullFlags page.keys), .sort (sortKeys page.keys), .skip page.skip,
    .limit page.limit, .remove ((nullFlags page.keys).map Prod.fst)]

/-- The expression that is 1 for a null or missing member and 0 for any other. -/
def nullFlag (name : String) : Bson :=
  let orNull := Bson.document [("$ifNull", .array [.string ("$" ++ name), .null])]
  let isNull := Bson.document [("$eq", .array [orNull, .null])]
  .document [("$cond", .array [isNull, .int32 1, .int32 0])]

def Stage.toDocument : Stage → Document
  | filter f => [("$match", .document f.toDocument)]
  | addNullFlags flags =>
    [("$addFields", .document (flags.map fun (flag, name) => (flag, nullFlag name)))]
  | sort keys => [("$sort", .document (keys.map fun (name, sign) => (name, .int32 sign)))]
  | skip count => [("$skip", .int64 count)]
  | limit count => [("$limit", .int64 count)]
  | remove names => [("$unset", .array (names.map .string))]

end EntityQuery.DocumentStore
