import EntityQuery.FieldType
/-!
# Errors

What can go wrong, as causes, and the wording of each cause. Mistakes of a caller
are reported together, one entry for each faulty filter or sort field. Failures
of a store and of the configuration are reported alone.
-/

namespace EntityQuery

/-- A filter or sort field that cannot be used. -/
inductive FilterError
  | unknownField (entity field : String)
  | invalidValue (field value expected : String)
  | unsupportedOperator (field : String) (operator : Operator) (type : String)
  deriving DecidableEq, Repr

namespace FilterError

def field : FilterError → String
  | unknownField _ field => field
  | invalidValue field _ _ => field
  | unsupportedOperator field _ _ => field

def code : FilterError → String
  | unknownField .. => "UNKNOWN_FIELD"
  | invalidValue .. => "INVALID_VALUE"
  | unsupportedOperator .. => "UNSUPPORTED_OPERATOR"

def message : FilterError → String
  | unknownField entity field =>
    "Unknown field '" ++ field ++ "' for entity '" ++ entity ++ "'"
  | invalidValue field value expected =>
    "Invalid value '" ++ value ++ "' for field '" ++ field ++ "': expected " ++ expected
  | unsupportedOperator field operator type =>
    "Operator " ++ operator.name ++ " is not supported for field '" ++ field ++
      "' of type " ++ type

end FilterError

/-- A request that its caller has to change. -/
inductive ValidationError
  | fields (errors : List FilterError)
  | invalidPage (index size : Int64) (reason : String)
  | invalidJson (message : String)
  | invalidQuery (message : String)
  deriving DecidableEq

namespace ValidationError

def code : ValidationError → String
  | fields _ => "VALIDATION_ERROR"
  | invalidPage .. => "INVALID_PAGE"
  | invalidJson _ => "INVALID_JSON"
  | invalidQuery _ => "INVALID_QUERY"

def fieldErrors : ValidationError → List FilterError
  | fields errors => errors
  | _ => []

def message : ValidationError → String
  | fields errors =>
    "Validation errors: " ++ ", ".intercalate (errors.map fun e => e.field ++ ": " ++ e.message)
  | invalidPage index size reason =>
    "Invalid page request (page " ++ toString index.toInt ++ ", size " ++ toString size.toInt ++
      "): " ++ reason
  | invalidJson message => "Invalid JSON: " ++ message
  | invalidQuery message => "Invalid query parameters: " ++ message

end ValidationError

/-- A failure of a store. -/
inductive StorageError
  | connection (backend message : String)
  | query (backend message : String)
  | serialization (message : String)
  | poisoned (message : String)
  deriving DecidableEq, Repr

def StorageError.message : StorageError → String
  | connection backend message => "Failed to connect to " ++ backend ++ ": " ++ message
  | query backend message => backend ++ " query error: " ++ message
  | serialization message => "Serialization error: " ++ message
  | poisoned message => "Storage lock poisoned: " ++ message

/-- A configuration that cannot be used. -/
inductive ConfigError
  | parse (file : Option String) (message : String)
  | io (message : String)
  | invalidValue (field message : String)
  deriving DecidableEq, Repr

def ConfigError.message : ConfigError → String
  | parse none message => "Failed to parse config: " ++ message
  | parse (some file) message => "Failed to parse config file '" ++ file ++ "': " ++ message
  | io message => "IO error: " ++ message
  | invalidValue field message => "Invalid value for '" ++ field ++ "': " ++ message

/-- Any failure of a listing service. -/
inductive QueryError
  | validation (error : ValidationError)
  | storage (error : StorageError)
  | config (error : ConfigError)
  | internal (message : String)
  deriving DecidableEq

namespace QueryError

def code : QueryError → String
  | validation error => error.code
  | storage _ => "STORAGE_ERROR"
  | config _ => "CONFIG_ERROR"
  | internal _ => "INTERNAL_ERROR"

def message : QueryError → String
  | validation error => error.message
  | storage error => error.message
  | config error => error.message
  | internal message => "Internal error: " ++ message

/-- The HTTP status: the caller's fault or the service's. -/
def status : QueryError → Nat
  | validation _ => 400
  | _ => 500

end QueryError

end EntityQuery
