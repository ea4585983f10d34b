import ResourceQuery.Sql.Backend

/-!
# Store — Error

What can go wrong below the query engine.  A store error keeps the backend it came from and tells
whether trying again may help.  The wording of a database driver is not part of a message; `elided`
stands in its place.
-/

namespace ResourceQuery

/-- What stands for the words of a driver or a reader of URLs. -/
def elided : String := "<detail>"

/-- Why a database driver failed. -/
inductive Fault where
  | poolTimedOut
  | poolClosed
  | io
  | protocol
  | columnNotFound
  | rowNotFound
  | execution
  deriving DecidableEq, Repr

/-- A failure of the store, of its configuration or of a connection to it. -/
inductive DataError where
  | driver (backend : Backend) (fault : Fault)
  | config (message : String)
  | poolExhausted (backend : Backend)
  | decode (backend : Backend) (column reason : String)
  deriving DecidableEq, Repr

namespace DataError

/-- The error of a driver's failure: running out of connections is told apart. -/
def ofFault (backend : Backend) : Fault → DataError
  | .poolTimedOut => .poolExhausted backend
  | f => .driver backend f

/-- The wording of an error. -/
def message : DataError → String
  | .driver .sqlite _ => "SQLite error: " ++ elided
  | .driver .postgres _ => "PostgreSQL error: " ++ elided
  | .config m => "Configuration error: " ++ m
  | .poolExhausted b => "Connection pool exhausted on " ++ b.name
  | .decode b column reason =>
      "Failed to decode column " ++ column ++ " on " ++ b.name ++ ": " ++ reason

/-- Trying again may help. -/
def transient : DataError → Bool
  | .poolExhausted _ => true
  | .driver _ f => f == .poolTimedOut || f == .poolClosed || f == .io
  | .config _ => false
  | .decode _ _ _ => false

/-- The name of the backend an error came from. -/
def backendName : DataError → String
  | .driver b _ => b.name
  | .poolExhausted b => b.name
  | .decode b _ _ => b.name
  | .config _ => "unknown"

end DataError
end ResourceQuery
