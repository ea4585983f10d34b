import ResourceQuery.Cli.Scan
import ResourceQuery.Config.Settings
import ResourceQuery.Query.Options

/-!
# Cli — Invocation

What a command line asks for.  A command's own level is read and completed first, the level above
it last.  The value of a setting is the one after the command, or else the one before it, or else
the environment's; an environment variable is looked at on each level that does not give the
setting.
-/

namespace ResourceQuery.Cli

/-- Environment variables. -/
abbrev Env := List (String × String)

/-- A query as the command line gives it. -/
structure QueryArgs where
  resource : String
  page : Option String := none
  limit : Option String := none
  sort : Option String := none
  search : Option String := none
  fields : Option String := none
  filter : Option String := none
  includeDeleted : Bool := false
  columns : Option String := none
  deriving DecidableEq, Repr

/-- The list request of a query; a command line carries everything as text. -/
def QueryArgs.request (q : QueryArgs) : ListRequest :=
  { page := q.page.map .str
    limit := q.limit.map .str
    sort := q.sort
    search := q.search
    fields := q.fields.map fun s => [s]
    filter := q.filter.map .str
    includeDeleted := if q.includeDeleted then some (.bool true) else none }

/-- What is to be done. -/
inductive Command where
  | resources
  | query (q : QueryArgs)
  deriving DecidableEq, Repr

/-- A command with the settings given for it. -/
structure Invocation where
  overrides : Overrides
  command : Command
  deriving DecidableEq, Repr

/-- The environment's settings that a level does not give itself. -/
def environment (env : Env) (st : Scan) : List (Opt × String) :=
  settingVariables.filterMap fun (o, name) =>
    if (st.values.lookup o).isSome then none else (env.lookup name).map fun v => (o, v)

/-- A level read to its end, its part of the environment looked at. -/
def complete (env : Env) (st : Scan) : Except UsageError Scan := do
  let st ← st.settle
  (environment env st).forM fun (o, v) => o.check v
  return st

/-- The value of a setting. -/
def setting (env : Env) (root sub : Scan) (o : Opt) : Option String :=
  (sub.values.lookup o).or
    ((root.values.lookup o).or ((settingVariables.lookup o).bind fun name => env.lookup name))

/-- The settings of a command line. -/
def overrides (env : Env) (root sub : Scan) : Overrides :=
  let get := setting env root sub
  { config := get .config
    backend := (get .backend).bind backend?
    url := get .url
    maxConnections := (get .maxConnections).bind number?
    defaultLimit := (get .defaultLimit).bind number?
    maxLimit := (get .maxLimit).bind number? }

/-- The level of a command. -/
def subLevel (env : Env) (g : Grammar) (args : List String) : Except UsageError Scan := do
  let (st, _) ← Scan.run g {} args
  complete env st

/-- The query a level asks for. -/
def queryArgs (st : Scan) : Except UsageError QueryArgs :=
  let get := fun o => st.values.lookup o
  match st.argument with
  | none => .error .missingArgument
  | some resource =>
      .ok {
        resource
        page := get .page
        limit := get .limit
        sort := get .sort
        search := get .search
        fields := get .fields
        filter := get .filter
        includeDeleted := st.includeDeleted
        columns := get .columns }

/-- Help on a command. -/
def helpOn : List String → UsageError
  | [] => .help
  | [name] => if rootGrammar.commands.contains name then .help else .invalidCommand
  | _ => .invalidCommand

/-- A command line without a command. -/
def commandless (env : Env) (root : Scan) : Except UsageError Invocation := do
  let st ← complete env root
  if st.values.isEmpty && (environment env st).isEmpty then .error .helpForNothing
  else .error .missingCommand

/-- The invocation of a command whose level has been read. -/
def invocation (env : Env) (root sub : Scan) (c : Command) : Except UsageError Invocation := do
  let root ← complete env root
  return ⟨overrides env root sub, c⟩

/-- What a command line asks for. -/
def parse (env : Env) (args : List String) : Except UsageError Invocation := do
  match ← Scan.run rootGrammar {} args with
  | (root, none) => commandless env root
  | (root, some (name, rest)) =>
      if name = "help" then .error (helpOn rest)
      else if name = "query" then do
        let sub ← subLevel env queryGrammar rest
        invocation env root sub (.query (← queryArgs sub))
      else do
        let sub ← subLevel env resourcesGrammar rest
        invocation env root sub .resources

end ResourceQuery.Cli
