import ResourceQuery.Config.Settings
import ResourceQuery.Store.Postgres.Url
import ResourceQuery.Store.Sqlite.Database

/-!
# Store — Connect

Connecting to a database.  Its URL has to be one of its backend, and there has to be time to wait for
a connection, but not more than a clock can tell.

No server of PostgreSQL answers.  On this machine the wait for one lasts until the time is up; there
is no way to any other.
-/

namespace ResourceQuery

/-- Why there is no connection. -/
inductive ConnectError where
  | failure (e : DataError)
  /-- The end of the wait is a moment that the clock, which counts seconds in 63 bits, never
  reaches. -/
  | endlessWait
  deriving DecidableEq, Repr

/-- The SQLite database of a URL. -/
def SqliteUrl.open (files : Files) (cwd : String) (u : SqliteUrl) : Except Fault Store :=
  match u.source with
  | .error f => .error f
  | .ok s =>
      match s.open? files cwd with
      | some store => .ok store
      | none => .error .execution

/-- Why there is no connection to the PostgreSQL database of a URL. -/
def PostgresUrl.fault (u : PostgresUrl) : Fault :=
  if u.isHere then .poolTimedOut else .io

/-- Waits for a connection, for which there has to be time. -/
def waited (d : DatabaseSettings) (result : Except Fault Store) : Except ConnectError Store :=
  if signedCount ≤ d.acquireTimeout + 1 then .error .endlessWait
  else if d.acquireTimeout = 0 then .error (.failure (.ofFault d.backend .poolTimedOut))
  else result.mapError fun f => .failure (.ofFault d.backend f)

/-- Connects to a database. -/
def connect (files : Files) (cwd : String) (d : DatabaseSettings) : Except ConnectError Store :=
  if (Text.trim d.url).isEmpty then .error (.failure (.config "Database URL is required"))
  else match d.backend with
    | .sqlite =>
        match SqliteUrl.parse? d.url with
        | some u => waited d (u.open files cwd)
        | none => .error (.failure (.config ("Invalid SQLite URL: " ++ elided)))
    | .postgres =>
        match PostgresUrl.parse? d.url with
        | some u => waited d (.error u.fault)
        | none => .error (.failure (.config ("Invalid PostgreSQL URL: " ++ elided)))

/-- The files that are looked at to connect to a database. -/
def DatabaseSettings.looksAt (cwd : String) (d : DatabaseSettings) : List String :=
  match d.backend, SqliteUrl.parse? d.url with
  | .sqlite, some u =>
      match u.source with
      | .ok s => (s.looksAt cwd).filterMap fun l => Text.ofUtf8? l.path
      | .error _ => []
  | _, _ => []

end ResourceQuery
