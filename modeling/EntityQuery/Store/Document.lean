import EntityQuery.Bson.Json
import EntityQuery.CompiledQuery
import EntityQuery.Resource
import EntityQuery.Store.Dialogue
import EntityQuery.Store.Document.Query
import EntityQuery.Time.Reading
/-!
# The document store

Every entity type has a collection of documents, named by its plural. A document
is the entity's JSON with the identifier under `_id` and the instants in the form
of `DocumentStore.writeInstant`.

Saving replaces one document. A listing counts first and then fetches the page.
-/

namespace EntityQuery.DocumentStore

/-- A request to the server. -/
inductive Command
  /-- Puts a document in place of the one with an identifier. -/
  | replace (collection : String) (id : String) (document : Document)
  | count (collection : String) (filter : Filter)
  | aggregate (collection : String) (stages : List Stage)

/-- What the server says to a command. -/
inductive Reply
  | refused
  | written
  | counted (total : UInt64)
  /-- Documents, and whether all of them could be fetched. -/
  | found (documents : List Document) (complete : Bool)

abbrev Session (α : Type) := Dialogue Command Reply (Except QueryError α)

def backend : String := "mongodb"

def queryError (context : String) : QueryError :=
  .storage (.query backend context)

/-! ## Documents -/

/-- Puts the instants of a document into their stored form. -/
def normalizeInstants : List (String × FieldType) → Document → Except StorageError Document
  | [], doc => .ok doc
  | (field, type) :: rest, doc =>
    match type, Assoc.lookup field doc with
    | .dateTime, some (.string raw) =>
      match Instant.readStrict? raw.toList with
      | some t => normalizeInstants rest (Assoc.insert field (.string (writeInstant t)) doc)
      | none => .error (.serialization ("Invalid date-time in '" ++ field ++ "'"))
    | _, _ => normalizeInstants rest doc

/-- Moves the member of one name to another: away from its place, to the end or over the other. -/
def moveMember (source target : String) (doc : Document) : Document :=
  match Assoc.lookup source doc with
  | some value => Assoc.insert target value (Assoc.erase source doc)
  | none => doc

def documentOfJson (d : Descriptor) (json : Json) : Except StorageError Document :=
  match Bson.ofJson? json with
  | none => .error (.serialization "Failed to convert JSON to BSON")
  | some (.document doc) => (normalizeInstants d.fields doc).map (moveMember "id" "_id")
  | some _ => .error (.serialization "Expected BSON document, got non-object")

def jsonOfDocument (doc : Document) : Json :=
  (Bson.document (moveMember "_id" "id" doc)).toJson

variable {α : Type} [Resource α]

def documentOf (e : α) : Except StorageError Document :=
  documentOfJson (Resource.descriptor α) (Resource.encode e)

def entityOf (doc : Document) : Except StorageError α :=
  match Resource.decode? (jsonOfDocument doc) with
  | some e => .ok e
  | none => .error (.serialization "Failed to deserialize entity from document")

/-! ## Sessions -/

def save (e : α) : Session α :=
  match documentOf e with
  | .error cause => .done (.error (.storage cause))
  | .ok doc =>
    .ask (.replace (Resource.plural α) (Resource.id e).toText doc) fun
      | .written => .done (.ok e)
      | _ => .done (.error (queryError "Failed to save entity"))

def readPage (page : PageSpec) (total : UInt64) (documents : List Document) :
    Except QueryError (Page α) :=
  match documents.mapM (entityOf (α := α)) with
  | .ok content => .ok ⟨content, total, page.index, page.size⟩
  | .error cause => .error (.storage cause)

def stages (filter : Filter) (page : PageSpec) : List Stage :=
  .filter filter :: pageStages page

def execute (q : CompiledQuery) (page : PageSpec) : Session (Page α) :=
  match page.validateSort (Resource.descriptor α) with
  | .error e => .done (.error (.validation e))
  | .ok () =>
    let filter := Filter.ofPredicate q.predicate
    .ask (.count (Resource.plural α) filter) fun
      | .counted total =>
        .ask (.aggregate (Resource.plural α) (stages filter page)) fun
          | .found documents true => .done (readPage page total documents)
          | .found _ false => .done (.error (queryError "Failed to collect entities"))
          | _ => .done (.error (queryError "Failed to fetch entities"))
      | _ => .done (.error (queryError "Failed to count entities"))

end EntityQuery.DocumentStore
