import EntityQuery.Entity.Schema
/-!
# The directory of people

The entity types of a service that keeps people, their roles and permissions, and
how they sign in.
-/

namespace EntityQuery.Directory

/-- A column that every entity fills. -/
def required (name : String) (shape : Shape) (type : FieldType) : Column :=
  ⟨name, shape, 0, type⟩

/-- A column that may be unset. -/
def optional (name : String) (shape : Shape) (type : FieldType) : Column :=
  ⟨name, shape, 1, type⟩

def genders : List String :=
  ["MALE", "FEMALE", "OTHER"]

/-- Who vouches for a sign-in. -/
def providers : List String :=
  ["LOCAL", "GOOGLE", "GITHUB", "FACEBOOK"]

def person : Schema where
  singular := "person"
  plural := "people"
  columns :=
    [required "name" .text .text,
     required "surname" .text .text,
     required "email" .text .text,
     optional "birthday" .date .date,
     optional "gender" (.choice genders) (.enum genders),
     optional "height" .double .decimal,
     required "active" .boolean .boolean,
     required "children" .int64 .integer]

def role : Schema where
  singular := "role"
  plural := "roles"
  columns :=
    [required "name" .text .text,
     optional "description" .text .text]

def permission : Schema where
  singular := "permission"
  plural := "permissions"
  columns :=
    [required "name" .text .text,
     optional "description" .text .text]

def authentication : Schema where
  singular := "authentication"
  plural := "authentications"
  columns :=
    [required "username" .text .text,
     required "provider" (.choice providers) (.enum providers),
     required "person_id" .uuid .text,
     required "enabled" .boolean .boolean,
     optional "last_login" .instant .dateTime,
     required "failed_attempts" .int64 .integer]

def authProvider : Schema where
  singular := "auth_provider"
  plural := "auth_providers"
  columns :=
    [required "name" .text .text,
     required "provider" (.choice providers) (.enum providers),
     required "client_id" .text .text,
     required "enabled" .boolean .boolean]

def schemas : List Schema :=
  [person, role, permission, authentication, authProvider]

def newRole (id : Uuid) (now : Instant) (name : String) (description : Option String) :
    Entity role :=
  .create id now (.cons (.value name) (.cons
    (match description with
      | some text => .value text
      | none => .unset 0 (by decide)) .nil))

end EntityQuery.Directory
