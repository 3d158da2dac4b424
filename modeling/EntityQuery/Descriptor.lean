import EntityQuery.Assoc
import EntityQuery.Error
/-!
# Descriptors

The table of an entity's fields: each name with its type, in the order in which
the names were first declared. Names are looked up exactly.
-/

namespace EntityQuery

structure Descriptor where
  entity : String
  /-- The field that identifies an entity and orders a listing by default. -/
  identity : String
  fields : List (String × FieldType)
  distinct : (Assoc.keys fields).Nodup
  deriving DecidableEq

namespace Descriptor

def empty (entity identity : String) : Descriptor :=
  ⟨entity, identity, [], List.nodup_nil⟩

/-- Declares a field. A repeated name keeps its place and takes the new type. -/
def declare (d : Descriptor) (name : String) (type : FieldType) : Descriptor :=
  { d with
    fields := Assoc.insert name type d.fields
    distinct := Assoc.nodup_keys_insert name type d.distinct }

def ofDeclarations (entity identity : String) (declarations : List (String × FieldType)) :
    Descriptor :=
  declarations.foldl (fun d field => d.declare field.1 field.2) (empty entity identity)

def type? (d : Descriptor) (field : String) : Option FieldType :=
  Assoc.lookup field d.fields

/-- The entry of a field in the table, if the field is declared. -/
def field? (d : Descriptor) (name : String) : Option (String × FieldType) :=
  d.fields.find? fun field => field.1 = name

def contains (d : Descriptor) (field : String) : Bool :=
  Assoc.contains field d.fields

/-- The type of a field, or the error that reports the field. -/
def resolve (d : Descriptor) (field : String) : Except FilterError FieldType :=
  match d.type? field with
  | some type => .ok type
  | none => .error (.unknownField d.entity field)

end Descriptor

end EntityQuery
