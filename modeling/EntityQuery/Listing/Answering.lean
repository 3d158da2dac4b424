import EntityQuery.CompiledQuery
import EntityQuery.Config.Settings
import EntityQuery.Listing.Params
/-!
# Answering a listing

A request is prepared before any store is asked: its page is checked against the
limits, its filters are read and compiled. Only a prepared request is handed to a
store, which checks the sort fields itself.
-/

namespace EntityQuery.Listing

/-- What fetches pages of entities: a store, in whatever way it is asked. -/
abbrev Source (m : Type → Type) (α : Type) :=
  CompiledQuery → PageSpec → m (Except QueryError (Page α))

def checkSize (limits : PageLimits) (page size : Int64) : Except ValidationError Unit :=
  if limits.maxSize.toInt < size.toInt then
    .error (.invalidPage page size
      ("page size must be <= " ++ toString limits.maxSize.toInt))
  else .ok ()

def prepare (d : Descriptor) (limits : PageLimits) (params : QueryParams) :
    Except ValidationError (CompiledQuery × PageSpec) := do
  let size := params.sizeOr limits.defaultSize
  checkSize limits params.page size
  let page ← PageSpec.assemble d params.page size params.direction params.sortFields
  let filters ← params.filters
  let query ← CompiledQuery.compile d filters
  return (query, page)

def answer [Monad m] (d : Descriptor) (source : Source m α) (limits : PageLimits)
    (params : QueryParams) : m (Except QueryError (Page α)) :=
  match prepare d limits params with
  | .error e => pure (.error (.validation e))
  | .ok (query, page) => source query page

end EntityQuery.Listing
