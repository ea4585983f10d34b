import ResourceQuery.Api.Response
import ResourceQuery.App.EnvFile
import ResourceQuery.Cli.Invocation
import ResourceQuery.Config.Load
import ResourceQuery.Json.Printer
import ResourceQuery.Query.Session
import ResourceQuery.Store.Connect

/-!
# App — Run

The program from its command line to what it prints.  An environment file in the working directory,
or else in the nearest directory above it that has one, is read before the command line.  A listing
names the resources with their fields; a query prints a page of rows, or else the body of an error,
and fails.
-/

namespace ResourceQuery.App

/-- What the program runs in. -/
structure World where
  place : Path.Place
  files : Files
  env : Cli.Env
  clock : Clock

/-- What a run of the program comes to. -/
structure Report where
  /-- The lines printed. -/
  output : List String := []
  /-- Why it failed. -/
  error : Option String := none
  /-- Warnings and errors on the way. -/
  events : List Event := []
  status : UInt32 := 0
  deriving DecidableEq, Repr

namespace Report

/-- A run that prints some lines. -/
def printed (events : List Event) (output : List String) : Report :=
  { output, events }

/-- A run that fails after printing some lines. -/
def failed (events : List Event) (output : List String) (e : String) : Report :=
  { output, events, error := some e, status := 1 }

/-- A run that breaks off. -/
def brokenOff (events : List Event) : Report :=
  { events, status := 101 }

/-- A run that prints an error as a client is told it, and fails. -/
def ofApiError (events : List Event) (e : ApiError) : Report :=
  failed events [e.body.pretty] (e.message ++ " (" ++ e.statusLine ++ ")")

end Report

/-- How the program is used. -/
def usage : List String :=
  ["Usage: tabula [OPTIONS] query [OPTIONS] <RESOURCE>",
    "       tabula [OPTIONS] resources"]

/-- A command line that is not carried out: it asks for help or the version, or it is wrong. -/
def Report.ofUsageError : Cli.UsageError → Report
  | .help => { output := usage }
  | .version => { output := ["tabula 0.1.0"] }
  | e => { error := some e.message, status := 2 }

/-- Where an environment file may be: in some directory, given by its names from the last one up, or
above it. -/
def environmentFiles : List String → List String
  | [] => ["/.env"]
  | name :: above =>
      String.join ((above.reverse ++ [name, ".env"]).map fun n => "/" ++ n) :: environmentFiles above

/-- Where an environment file may be, the nearest first. -/
def World.environmentFiles (w : World) : List String :=
  App.environmentFiles (FileTree.names w.place.cwd).reverse

/-- The nearest environment file. -/
def World.environmentFile? (w : World) : Option Entry :=
  (w.environmentFiles.map w.files).find? fun e => e != .missing && e != .directory

/-- The environment with what an environment file adds to it. -/
def World.environment (w : World) : Cli.Env :=
  match w.environmentFile? with
  | some (.text s) => EnvFile.load w.env s
  | _ => w.env

/-- The lines on a resource. -/
def resourceLines (r : Resource) : List String :=
  let mark := match r.deletedAt with
    | some c => " (soft delete: " ++ c ++ ")"
    | none => ""
  [r.name ++ " -> " ++ r.table ++ mark,
    "  allowed: " ++ String.intercalate ", " r.allowList.names]

/-- The lines on all resources. -/
def listing (s : Settings) : List String :=
  if s.resources.isEmpty then ["No resources configured."]
  else s.resources.flatMap resourceLines

/-- A query on a table. -/
def queryTable (w : World) (s : Settings) (events : List Event) (store : Store) (t : Table)
    (a : AllowList) (q : Cli.QueryArgs) : Report :=
  let engine : Engine := ⟨w.clock, s.limits, t⟩
  match (engine.serve store a q.request).result with
  | .ok page => .printed events [page.toJson.pretty]
  | .error (.query e) => .ofApiError (events ++ e.events) (.ofQueryError e)
  | .error (.invertedBounds low high) =>
      .failed events [] (ConfigError.invertedLimits low high).message

/-- A query under some settings. -/
def query (w : World) (s : Settings) (events : List Event) (q : Cli.QueryArgs) : Report :=
  match connect w.files w.place.cwd s.database with
  | .error .endlessWait => .brokenOff events
  | .error (.failure _) =>
      .failed events [] ("Failed to connect to " ++ s.database.backend.name ++ " database")
  | .ok store =>
      match s.resource? q.resource with
      | none =>
          .ofApiError events
            (.notFound "RESOURCE_NOT_FOUND" ("Unknown resource: " ++ q.resource))
      | some r =>
          match r.build with
          | .error _ => .failed events [] ("Invalid resource '" ++ r.name ++ "'")
          | .ok t =>
              let a := match q.columns with
                | some names => AllowList.ofList (Text.items names)
                | none => r.allowList
              queryTable w s events store t a q

/-- Carries out an invocation. -/
def execute (w : World) (i : Cli.Invocation) : Report :=
  match Settings.load w.files w.place i.overrides with
  | (events, .error e) => .failed events [] e.message
  | (events, .ok s) =>
      match i.command with
      | .resources => .printed events (listing s)
      | .query q => query w s events q

/-- A run of the program. -/
def run (w : World) (args : List String) : Report :=
  match Cli.parse w.environment args with
  | .error e => .ofUsageError e
  | .ok i => execute w i

/-- The files an invocation looks at: its configuration and, once that is found, the database. -/
def filesOf (w : World) (i : Cli.Invocation) : List String :=
  let named := (i.overrides.config.map (Path.expand w.place)).toList
  let database := match (Settings.load w.files w.place i.overrides).2 with
    | .error _ => []
    | .ok s => s.database.looksAt w.place.cwd
  [Settings.profilePath w.place, configFileName] ++ named ++ database

/-- The files a run looks at. -/
def consulted (w : World) (args : List String) : List String :=
  w.environmentFiles ++ match Cli.parse w.environment args with
    | .ok i => filesOf w i
    | .error _ => []

end ResourceQuery.App
