import EntityQuery.Error
import EntityQuery.Json.Writing
/-!
# Responses

What a service answers, and errors as responses: the status tells whose fault it
is, and the body carries a code, a message and, for faulty filters and pages, the
details.
-/

namespace EntityQuery

namespace FilterError

/-- An entry of the details of faulty filters. -/
def toJson (e : FilterError) : Json :=
  .obj [("field", .str e.field), ("code", .str e.code), ("message", .str e.message)]

end FilterError

namespace QueryError

/-- What a caller can use to find the fault. -/
def details? : QueryError → Option Json
  | validation (.fields errors) =>
    some (.obj [("fields", .arr (errors.map FilterError.toJson))])
  | validation (.invalidPage index size _) =>
    some (.obj [("page", .int index.toInt), ("size", .int size.toInt)])
  | _ => none

def toJson (e : QueryError) : Json :=
  .obj ([("code", .str e.code), ("message", .str e.message)] ++
    e.details?.toList.map fun details => ("details", details))

end QueryError

namespace Http

structure Response where
  status : Nat
  contentType : Option String := none
  /-- The methods of the path, told when another one was used. -/
  allow : Option String := none
  body : String := ""
  deriving DecidableEq, Repr

namespace Response

def json (status : Nat) (body : Json) : Response :=
  { status, contentType := some "application/json", body := body.toText }

def text (body : String) : Response :=
  { status := 200, contentType := some "text/plain; charset=utf-8", body }

def notFound : Response :=
  { status := 404 }

/-- The path has no such method. -/
def notAllowed : Response :=
  { status := 405, allow := some "GET,HEAD" }

def ofError (e : QueryError) : Response :=
  json e.status e.toJson

def bare (r : Response) : Response :=
  { r with body := "" }

end Response

end Http

end EntityQuery
