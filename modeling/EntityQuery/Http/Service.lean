import EntityQuery.Http.Pattern
import EntityQuery.Http.QueryString
import EntityQuery.Http.Response
import EntityQuery.Http.Target
import EntityQuery.Listing.Answering
import EntityQuery.Listing.Pagination
import EntityQuery.Resource
/-!
# The listing service

A service lists every registered entity type under the plural of its name, tells
that it is alive, and serves further routes of its owner. Registering an entity
type again replaces its store, and the limits are those of the last settings.

Every route is read with `GET`, and with `HEAD` for the response without its body.
-/

namespace EntityQuery.Http

/-- What the paths of a pattern answer to a query string. -/
structure Route (m : Type → Type) where
  pattern : String
  get : List Char → m Response

structure Registration (m : Type → Type) where
  plural : String
  descriptor : Descriptor
  /-- The store, its entities as JSON. -/
  source : Listing.Source m Json

def Registration.of [Functor m] (α : Type) [Resource α] (source : Listing.Source m α) :
    Registration m where
  plural := Resource.plural α
  descriptor := Resource.descriptor α
  source query page :=
    (fun result => result.map fun found => found.map Resource.encode) <$> source query page

structure Service (m : Type → Type) where
  settings : Settings := {}
  /-- The registrations by the singular of the name. -/
  registrations : List (String × Registration m) := []
  /-- The routes of the owner. -/
  custom : List (Route m) := []

namespace Service

variable {m : Type → Type}

def withSettings (s : Service m) (settings : Settings) : Service m :=
  { s with settings }

/-- Lists a resource out of a store. -/
def register [Functor m] (s : Service m) (α : Type) [Resource α]
    (source : Listing.Source m α) : Service m :=
  { s with
    registrations :=
      Assoc.insert (Resource.singular α) (Registration.of α source) s.registrations }

/-- Adds a route of the owner. -/
def withRoute (s : Service m) (route : Route m) : Service m :=
  { s with custom := s.custom ++ [route] }

/-- The singular names of the registered entity types. -/
def entityTypes (s : Service m) : List String :=
  s.registrations.map Prod.fst

/-- What a service says when it is alive. -/
def health : Json :=
  .obj [("status", .str "ok"), ("service", .str "this-query"), ("version", .str "0.0.9")]

variable [Monad m]

/-- A route that tells that the service is alive. -/
def healthRoute (pattern : String) : Route m :=
  ⟨pattern, fun _ => pure (.json 200 health)⟩

/-- The response to a listing's answer. -/
def respondWith : Except QueryError (Page Json) → Response
  | .ok page => .json 200 page.toJson
  | .error e => .ofError e

def listRoute (limits : PageLimits) (r : Registration m) : Route m where
  pattern := "/" ++ r.plural
  get query :=
    match readParams query with
    | .error e => pure (.ofError (.validation e))
    | .ok params => respondWith <$> Listing.answer r.descriptor r.source limits params

def routes (s : Service m) : List (Route m) :=
  [healthRoute "/health", healthRoute "/healthz"] ++
    s.registrations.map (fun pair => listRoute s.settings.limits pair.2) ++ s.custom

/-- The route of a path: the most specific one, and of equal ones the first. -/
def routeOf? (path : List Char) : List (Route m) → Option (Route m)
  | [] => none
  | route :: rest =>
    let parts := patternOf route.pattern
    match routeOf? path rest with
    | none => if Part.fits parts path then some route else none
    | some other =>
      if Part.fits parts path && !Part.precedes (patternOf other.pattern) parts then some route
      else some other

def respond (s : Service m) (method target : String) : m Response :=
  let target := Target.read target.toList
  match routeOf? target.path s.routes with
  | none => pure .notFound
  | some route =>
    match method with
    | "GET" => route.get target.query
    | "HEAD" => Response.bare <$> route.get target.query
    | _ => pure .notAllowed

end Service

end EntityQuery.Http
