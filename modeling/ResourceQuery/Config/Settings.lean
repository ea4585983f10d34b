import ResourceQuery.Config.Layer
import ResourceQuery.Event

/-!
# Config — Settings

The settings a program runs with.  They come from the command line (`Overrides`), or else from the
layers of files, or else are built in.  `Settings.check` refuses settings that do not fit together,
each refusal with its cause, and warns of what is allowed but hardly meant.
-/

namespace ResourceQuery

/-- Where the database is and how it is connected to. -/
structure DatabaseSettings where
  backend : Backend
  url : String
  maxConnections : UInt32
  acquireTimeout : Nat
  deriving DecidableEq, Repr

/-- The settings of a program. -/
structure Settings where
  database : DatabaseSettings
  limits : Limits
  resources : List Resource
  deriving Repr

/-- The settings given on the command line or in its place. -/
structure Overrides where
  config : Option String := none
  backend : Option Backend := none
  url : Option String := none
  maxConnections : Option UInt32 := none
  defaultLimit : Option UInt32 := none
  maxLimit : Option UInt32 := none
  deriving DecidableEq, Repr

/-- Why there are no settings to run with. -/
inductive ConfigError where
  | fileNotFound (path : String)
  | unreadable (path : String)
  | malformed (path : String)
  | zeroMinLimit
  | invertedLimits (low high : UInt32)
  | defaultOutside (default low high : UInt32)
  | invertedSearchLengths (low high : Nat)
  | zeroConnections
  | invalidResourceName (name : String)
  | duplicateResource (name : String)
  | badResource (name : String) (cause : DataError)
  deriving DecidableEq, Repr

namespace ConfigError

/-- The wording of a refusal. -/
def message : ConfigError → String
  | fileNotFound path => "Config file not found: " ++ path
  | unreadable path => "Failed to read config file: " ++ path
  | malformed path => "Failed to parse config file: " ++ path
  | zeroMinLimit => "Configuration error: query.min_limit must be greater than 0"
  | invertedLimits low high =>
      "Configuration error: query.min_limit (" ++ toString low.toNat ++
        ") cannot exceed query.max_limit (" ++ toString high.toNat ++ ")"
  | defaultOutside default low high =>
      "Configuration error: query.default_limit (" ++ toString default.toNat ++
        ") must be between " ++ toString low.toNat ++ " and " ++ toString high.toNat
  | invertedSearchLengths low high =>
      "Configuration error: query.min_search_length (" ++ toString low ++
        ") cannot exceed query.max_search_length (" ++ toString high ++ ")"
  | zeroConnections => "Configuration error: database.max_connections must be greater than 0"
  | invalidResourceName name => "Configuration error: invalid resource name '" ++ name ++ "'"
  | duplicateResource name => "Configuration error: duplicate resource '" ++ name ++ "'"
  | badResource name _ => "Configuration error in resource '" ++ name ++ "'"

/-- The store errors behind a refusal. -/
def causes : ConfigError → List DataError
  | badResource _ cause => [cause]
  | _ => []

end ConfigError

namespace Settings

/-- The settings of a layer under the overrides. -/
def ofLayer (l : Layer) (o : Overrides) : Settings :=
  let limits := l.limits.resolve
  { database :=
      { backend := (o.backend.or l.database.backend).getD .sqlite
        url := (o.url.or l.database.url).getD "sqlite://tabula.db"
        maxConnections := (o.maxConnections.or l.database.maxConnections).getD 10
        acquireTimeout := l.database.acquireTimeout.getD 30 }
    limits :=
      { limits with
        defaultLimit := o.defaultLimit.getD limits.defaultLimit
        maxLimit := o.maxLimit.getD limits.maxLimit }
    resources := l.resources }

/-- The resource of a name. -/
def resource? (s : Settings) (name : String) : Option Resource :=
  s.resources.find? fun r => r.name == name

/-- The limits fit together. -/
def checkLimits (l : Limits) : Except ConfigError Unit :=
  if l.minLimit = 0 then .error .zeroMinLimit
  else if l.maxLimit < l.minLimit then .error (.invertedLimits l.minLimit l.maxLimit)
  else if l.defaultLimit < l.minLimit ∨ l.maxLimit < l.defaultLimit then
    .error (.defaultOutside l.defaultLimit l.minLimit l.maxLimit)
  else if l.maxSearchLength < l.minSearchLength then
    .error (.invertedSearchLengths l.minSearchLength l.maxSearchLength)
  else .ok ()

/-- A warning. -/
def warning (message : String) (fields : List (String × String)) : Event :=
  ⟨.warn, message, fields⟩

/-- What is odd about the limits. -/
def limitWarnings (l : Limits) : List Event :=
  if l.maxFilterOperations = 0 then
    [warning "query.max_filter_operations is 0, every filter will be rejected" []]
  else []

/-- The table of a resource whose name is none of `seen`. -/
def checkResource (seen : List String) (r : Resource) : Except ConfigError Table :=
  if !Text.isIdentifier r.name then .error (.invalidResourceName r.name)
  else if seen.contains r.name then .error (.duplicateResource r.name)
  else r.build.mapError (.badResource r.name)

/-- What is odd about a resource with its table. -/
def resourceWarnings (r : Resource) (t : Table) : List Event :=
  let a := r.allowList
  (if a.isEmpty then [warning "Resource allows no columns" [("resource", r.name)]] else []) ++
    (a.names.filter fun f => !t.hasField f).map fun f =>
      warning "Allowed column is not declared on the table and will be ignored"
        [("resource", r.name), ("field", f)]

/-- The resources one after the other, up to the first that is refused. -/
def checkResources (seen : List String) : List Resource → List Event × Except ConfigError Unit
  | [] => ([], .ok ())
  | r :: rs =>
      match checkResource seen r with
      | .error e => ([], .error e)
      | .ok t =>
          let (events, result) := checkResources (r.name :: seen) rs
          (resourceWarnings r t ++ events, result)

/-- The settings fit together; the warnings before a refusal are kept. -/
def check (s : Settings) : List Event × Except ConfigError Unit :=
  match checkLimits s.limits with
  | .error e => ([], .error e)
  | .ok () =>
      if s.database.maxConnections = 0 then (limitWarnings s.limits, .error .zeroConnections)
      else
        let (events, result) := checkResources [] s.resources
        (limitWarnings s.limits ++ events, result)

/-- The settings are accepted. -/
def accepted (s : Settings) : Bool :=
  match s.check.2 with
  | .ok _ => true
  | .error _ => false

end Settings
end ResourceQuery
