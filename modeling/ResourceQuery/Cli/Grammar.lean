import ResourceQuery.Config.Layer
import ResourceQuery.Number.Power
import ResourceQuery.Text.Fold
import ResourceQuery.Text.Numeral

/-!
# Cli — Grammar

What may stand on the command line.  Every level knows the options for settings; some of these also
have an environment variable.  The first level has the commands, and the level of a query a resource
and the options of a list request.
-/

namespace ResourceQuery.Cli

/-- Why a command line is not carried out. -/
inductive UsageError where
  | unknownArgument
  | invalidCommand
  | missingCommand
  | missingArgument
  /-- Something that may stand once stands twice. -/
  | repeated
  | unexpectedValue
  /-- A value is missing or empty. -/
  | noValue
  /-- A value is none of those an option takes. -/
  | badValue
  | help
  | version
  | helpForNothing
  deriving DecidableEq, Repr

/-- The wording of a refusal. -/
def UsageError.message : UsageError → String
  | unknownArgument => "unexpected argument"
  | invalidCommand => "unrecognized command"
  | missingCommand => "a command is required"
  | missingArgument => "a resource is required"
  | repeated => "an option cannot be used twice"
  | unexpectedValue => "an option takes no value"
  | noValue => "an option requires a value"
  | badValue => "an option does not take this value"
  | help => "help"
  | version => "version"
  | helpForNothing => "a command is required"

/-- An option that takes a value. -/
inductive Opt where
  | config
  | backend
  | url
  | maxConnections
  | defaultLimit
  | maxLimit
  | page
  | limit
  | sort
  | search
  | fields
  | filter
  | columns
  deriving DecidableEq, Repr

/-- What a name on the command line stands for. -/
inductive Switch where
  | opt (o : Opt)
  | includeDeleted
  | help
  | version
  deriving DecidableEq, Repr

/-- The value after an option may start with a hyphen. -/
def Opt.takesHyphens : Opt → Bool
  | .sort => true
  | _ => false

/-- The options for settings, with their environment variables. -/
def settingVariables : List (Opt × String) :=
  [(.config, "TABULA_CONFIG"), (.backend, "TABULA_DATABASE_BACKEND"),
    (.url, "TABULA_DATABASE_URL"), (.maxConnections, "TABULA_DATABASE_MAX_CONNECTIONS"),
    (.defaultLimit, "TABULA_QUERY_DEFAULT_LIMIT"), (.maxLimit, "TABULA_QUERY_MAX_LIMIT")]

/-- The backend a user names, in any case. -/
def backend? (s : String) : Option Backend :=
  let cs := s.toList
  if Text.sameAscii cs "sqlite".toList then some .sqlite
  else if Text.sameAscii cs "postgres".toList then some .postgres
  else if Text.sameAscii cs "postgresql".toList then some .postgres
  else none

/-- The number of 32 bits a user writes. -/
def number? (s : String) : Option UInt32 :=
  match Text.int? s.toList with
  | some n => if 0 ≤ n ∧ n < wordCount then some (UInt32.ofNat n.toNat) else none
  | none => none

/-- A value against what its option takes. -/
def Opt.check (o : Opt) (v : String) : Except UsageError Unit :=
  match o with
  | .config => if v.isEmpty then .error .noValue else .ok ()
  | .backend => if (backend? v).isSome then .ok () else .error .badValue
  | .maxConnections => if (number? v).isSome then .ok () else .error .badValue
  | .defaultLimit => if (number? v).isSome then .ok () else .error .badValue
  | .maxLimit => if (number? v).isSome then .ok () else .error .badValue
  | _ => .ok ()

/-- What may stand on one level of the command line. -/
structure Grammar where
  long : List (String × Switch)
  short : List (Char × Switch)
  commands : List String
  /-- One argument without a hyphen may stand here. -/
  argument : Bool

/-- The long names of every level. -/
def commonLong : List (String × Switch) :=
  [("config", .opt .config), ("database-backend", .opt .backend), ("database-url", .opt .url),
    ("database-max-connections", .opt .maxConnections),
    ("query-default-limit", .opt .defaultLimit), ("query-max-limit", .opt .maxLimit),
    ("help", .help)]

/-- The short names of every level. -/
def commonShort : List (Char × Switch) :=
  [('c', .opt .config), ('h', .help)]

/-- The first level. -/
def rootGrammar : Grammar :=
  { long := ("version", .version) :: commonLong
    short := ('V', .version) :: commonShort
    commands := ["query", "resources", "help"]
    argument := false }

/-- The level of a listing. -/
def resourcesGrammar : Grammar :=
  { long := commonLong
    short := commonShort
    commands := []
    argument := false }

/-- The level of a query. -/
def queryGrammar : Grammar :=
  { long :=
      [("page", .opt .page), ("limit", .opt .limit), ("sort", .opt .sort),
        ("search", .opt .search), ("fields", .opt .fields), ("filter", .opt .filter),
        ("include-deleted", .includeDeleted), ("columns", .opt .columns)] ++ commonLong
    short :=
      [('l', .opt .limit), ('s', .opt .sort), ('q', .opt .search), ('f', .opt .filter)] ++
        commonShort
    commands := []
    argument := true }

end ResourceQuery.Cli
