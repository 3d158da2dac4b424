import EntityQuery.Descriptor
import EntityQuery.FieldValue
import EntityQuery.Uuid
/-!
# Resources

What a listing needs to know about a type of entity: its names, its fields, how an
entity is identified and dated, the values of its fields, and its JSON.
-/

namespace EntityQuery

/-- A type of entities that can be stored and listed. -/
class Resource (α : Type) where
  /-- The name of one entity, as in messages. -/
  singular : String
  /-- The name of the listing, as in paths and collections. -/
  plural : String
  descriptor : Descriptor
  id : α → Uuid
  createdAt : α → Instant
  updatedAt : α → Instant
  /-- The value of a queryable field; an unset field is null. -/
  value? : α → String → Option FieldValue
  encode : α → Json
  decode? : Json → Option α

end EntityQuery
