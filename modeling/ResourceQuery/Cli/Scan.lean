import ResourceQuery.Cli.Grammar

/-!
# Cli — Scan

Reading one level of the command line from left to right.  What has been read last is only taken in
when the next name comes or the line ends (`Scan.settle`), so a fault in it shows after a name that
is unknown and before one that is known.  After `--` nothing is a name.
-/

namespace ResourceQuery.Cli

/-- What has been read last. -/
inductive Pending where
  | opt (o : Opt) (value : Option String)
  | argument (s : String)
  deriving DecidableEq, Repr

/-- How far a level has been read. -/
structure Scan where
  values : List (Opt × String) := []
  argument : Option String := none
  includeDeleted : Bool := false
  pending : Option Pending := none
  /-- `--` has been read. -/
  trailing : Bool := false
  deriving Repr

namespace Scan

/-- An option with its value is taken in. -/
def put (st : Scan) (o : Opt) (v : String) : Except UsageError Scan :=
  if (st.values.lookup o).isSome then .error .repeated
  else (o.check v).map fun _ => { st with values := st.values ++ [(o, v)] }

/-- What has been read last is taken in. -/
def settle (st : Scan) : Except UsageError Scan :=
  let rest := { st with pending := none }
  match st.pending with
  | none => .ok rest
  | some (.argument s) => .ok { rest with argument := some s }
  | some (.opt _ none) => .error .noValue
  | some (.opt o (some v)) => rest.put o v

/-- The option whose value comes next. -/
def awaiting (st : Scan) : Option Opt :=
  match st.pending with
  | some (.opt o none) => some o
  | _ => none

/-- Whatever comes next is a value. -/
def awaitsAnything (st : Scan) : Bool :=
  match st.awaiting with
  | some o => o.takesHyphens
  | none => false

/-- A switch that takes no value. -/
def flip (st : Scan) (s : Switch) : Except UsageError Scan := do
  let st ← st.settle
  match s with
  | .help => .error .help
  | .version => .error .version
  | .includeDeleted =>
      if st.includeDeleted then .error .repeated else return { st with includeDeleted := true }
  | .opt o => return { st with pending := some (.opt o none) }

/-- A switch with a value attached. -/
def attach (st : Scan) (s : Switch) (v : String) : Except UsageError Scan :=
  match s with
  | .opt o => do (← st.settle).put o v
  | _ => .error .unexpectedValue

/-- What stands outside any option. -/
def loose (g : Grammar) (st : Scan) (a : String) : Except UsageError Scan :=
  let taken := match st.pending with
    | some (.argument _) => true
    | _ => st.argument.isSome
  if g.argument && !taken then do
    return { (← st.settle) with pending := some (.argument a) }
  else if g.commands.isEmpty || (st.trailing && g.commands.contains a) then
    .error .unknownArgument
  else .error .invalidCommand

/-- A value or an argument. -/
def word (g : Grammar) (st : Scan) (a : String) : Except UsageError Scan :=
  match st.awaiting with
  | some o => .ok { st with pending := some (.opt o (some a)) }
  | none => st.loose g a

/-- The name and the attached value of a long switch, without its hyphens. -/
def splitLong (cs : List Char) : String × Option String :=
  let name := String.ofList (cs.takeWhile fun c => c != '=')
  match cs.dropWhile fun c => c != '=' with
  | [] => (name, none)
  | _ :: v => (name, some (String.ofList v))

/-- A long switch. -/
def long (g : Grammar) (st : Scan) (cs : List Char) : Except UsageError Scan :=
  let (name, v?) := splitLong cs
  match g.long.lookup name, v? with
  | none, _ => .error .unknownArgument
  | some s, none => st.flip s
  | some s, some v => st.attach s v

/-- Short switches in a row; what follows one that takes a value is its value. -/
def short (g : Grammar) (st : Scan) : List Char → Except UsageError Scan
  | [] => .ok st
  | c :: cs =>
      match g.short.lookup c with
      | none => .error .unknownArgument
      | some (.opt o) =>
          match cs with
          | [] => st.flip (.opt o)
          | '=' :: v => st.attach (.opt o) (String.ofList v)
          | v => st.attach (.opt o) (String.ofList v)
      | some s =>
          match st.flip s with
          | .error e => .error e
          | .ok st => short g st cs

/-- One word of the command line. -/
def step (g : Grammar) (st : Scan) (a : String) : Except UsageError Scan :=
  if st.trailing then st.loose g a
  else if st.awaitsAnything then st.word g a
  else match a.toList with
    | ['-', '-'] => .ok { st with trailing := true }
    | '-' :: '-' :: cs => st.long g cs
    | ['-'] => st.word g a
    | '-' :: cs => st.short g cs
    | _ => st.word g a

/-- The words of a level, up to the first that names a command; then the command and what follows
it. -/
def run (g : Grammar) (st : Scan) :
    List String → Except UsageError (Scan × Option (String × List String))
  | [] => .ok (st, none)
  | a :: as =>
      if !st.trailing && st.awaiting.isNone && g.commands.contains a then .ok (st, some (a, as))
      else match st.step g a with
        | .error e => .error e
        | .ok st => run g st as

end Scan
end ResourceQuery.Cli
