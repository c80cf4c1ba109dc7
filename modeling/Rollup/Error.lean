import Rollup.Format

/-!
# What can go wrong

Three layers have causes of failure of their own: the store, the reading and importing of files,
and the service that callers use. Each has one function that words its causes.
-/

namespace Rollup

/-- Why the store refuses an access. -/
inductive StoreError where
  /-- A write names a node that is not stored. -/
  | notFound (entity id : String)
  /-- A node with the same hierarchy id is stored in the project already. -/
  | duplicateHierarchyId
  /-- A node with the same storage id is stored already. -/
  | duplicateId
  /-- The project of a node is not stored. -/
  | unknownProject
  /-- The store could not carry out the write. -/
  | failed (reason : String)
  deriving DecidableEq, Repr

namespace StoreError

/-- The part of the message that names the broken rule. -/
def detail : StoreError → String
  | notFound entity id => entity ++ " with id=" ++ id
  | duplicateHierarchyId =>
    "UNIQUE constraint failed: hierarchy_node.project_id, hierarchy_node.hierarchy_id"
  | duplicateId => "UNIQUE constraint failed: hierarchy_node.id"
  | unknownProject => "FOREIGN KEY constraint failed"
  | failed reason => reason

/-- The message for a caller of the store. -/
def message (e : StoreError) : String :=
  match e with
  | notFound _ _ => "record not found: " ++ e.detail
  | duplicateHierarchyId | duplicateId => "unique constraint violated: " ++ e.detail
  | unknownProject => "foreign key constraint violated: " ++ e.detail
  | failed _ => "database query failed: " ++ e.detail

end StoreError

/-- Why a file cannot be read or imported. -/
inductive ImportError where
  | fileNotFound (path : String)
  | unsupportedFormat (extension : String)
  | unreadable (reason : String)
  | malformed (reason : String)
  | missingHeader
  | badRow (row : Nat) (reason : String)
  | badCell (row : Nat) (column value reason : String)
  | projectNotFound (project : String)
  | notAHierarchy (format : Format)
  | store (cause : StoreError)
  deriving DecidableEq, Repr

/-- The message of an import error. -/
def ImportError.message : ImportError → String
  | fileNotFound path => "file not found: " ++ path
  | unsupportedFormat extension =>
    "unsupported file format: " ++ extension ++ " (only .csv/.xlsx/.xls)"
  | unreadable reason => "file read failed: " ++ reason
  | malformed reason => "CSV parse failed: " ++ reason
  | missingHeader => "input has no header row"
  | badRow row reason => "row " ++ toString row ++ ": " ++ reason
  | badCell row column value reason =>
    "row " ++ toString row ++ ": invalid " ++ column ++ " value '" ++ value ++ "': " ++ reason
  | projectNotFound project => "project not found: " ++ project
  | notAHierarchy format =>
    "file format '" ++ format.name ++ "' cannot be imported as a hierarchy"
  | store cause => cause.message

/-- Why a call of the service fails. -/
inductive ServiceError where
  | invalidInput (reason : String)
  | notFound (what : String)
  | unrecognizedFormat (reason : String)
  | ruleViolated (reason : String)
  | importFailed (reason : String)
  | database (reason : String)
  | connection (reason : String)
  deriving DecidableEq, Repr

namespace ServiceError

/-- The message of a service error. -/
def message : ServiceError → String
  | invalidInput reason => "invalid input: " ++ reason
  | notFound what => "not found: " ++ what
  | unrecognizedFormat reason => "unrecognized file format: " ++ reason
  | ruleViolated reason => "business rule violated: " ++ reason
  | importFailed reason => "import failed: " ++ reason
  | database reason => "database error: " ++ reason
  | connection reason => "database connection failed: " ++ reason

/-- How a store error appears to a caller of the service. -/
def ofStore (e : StoreError) : ServiceError :=
  match e with
  | .notFound entity id => .notFound (entity ++ " (id=" ++ id ++ ")")
  | .duplicateHierarchyId | .duplicateId => .ruleViolated ("duplicate key: " ++ e.detail)
  | .unknownProject => .ruleViolated ("dangling reference: " ++ e.detail)
  | .failed reason => .database reason

/-- The service error for a project that is not stored. -/
def unknownProject (project : String) : ServiceError :=
  .notFound ("project " ++ project)

/-- How an import error appears to a caller of the service. -/
def ofImport (e : ImportError) : ServiceError :=
  match e with
  | .projectNotFound project => unknownProject project
  | .fileNotFound path => .notFound ("file " ++ path)
  | .unsupportedFormat extension =>
    .invalidInput ("unsupported file type '" ++ extension ++ "'")
  | .notAHierarchy format =>
    .unrecognizedFormat ("expected a hierarchy file, detected " ++ format.name)
  | .store cause => ofStore cause
  | .unreadable _ | .malformed _ | .missingHeader | .badRow _ _ | .badCell _ _ _ _ =>
    .importFailed e.message

end ServiceError

end Rollup
