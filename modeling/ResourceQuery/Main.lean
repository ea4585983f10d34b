import Std.Time
import ResourceQuery.App.Run

/-!
# Main

The command line: reads the environment, the clock and the files a run looks at, and prints what the
run comes to.
-/

namespace ResourceQuery

/-- What is found at a path. -/
def readEntry (path : String) : IO Entry := do
  let p := (← IO.currentDir) / path
  if ← p.isDir then return .directory
  try
    return .text (← IO.FS.readFile p)
  catch _ =>
    return if ← p.pathExists then .binary else .missing

/-- The files known so far, with those at some further paths. -/
def readEntries (known : List (String × Entry)) (paths : List String) :
    IO (List (String × Entry)) :=
  paths.foldlM
    (fun known path => do
      if (known.lookup path).isSome then return known
      else return (path, ← readEntry path) :: known)
    known

/-- The variables the program knows, as far as they are set. -/
def readEnvironment : IO Cli.Env :=
  ("HOME" :: Cli.settingVariables.map Prod.snd).filterMapM fun name => do
    return (← IO.getEnv name).map fun v => (name, v)

/-- The current time, and the local offset as a zone. -/
def readClock : IO Clock := do
  let now ← Std.Time.Timestamp.now
  let offset ← try
    let rules ← Std.Time.Database.defaultGetLocalZoneRules
    pure (rules.findLocalTimeTypeForTimestamp now).gmtOffset.second.val
  catch _ => pure 0
  return ⟨now.toSecondsSinceUnixEpoch.val, .fixed offset⟩

/-- The line on an event. -/
def Event.line (e : Event) : String :=
  String.intercalate " "
    ((e.level.name :: [e.message]) ++ e.fields.map fun (k, v) => k ++ "=" ++ v)

/-- The world with the files known. -/
def App.World.withFiles (w : App.World) (known : List (String × Entry)) : App.World :=
  { w with files := fun path => (known.lookup path).getD .missing }

/-- Runs the program. -/
def runMain (args : List String) : IO UInt32 := do
  let env ← readEnvironment
  let cwd := (← IO.currentDir).toString
  let start : App.World :=
    { place := ⟨(env.lookup "HOME").getD "/", cwd⟩
      files := fun _ => .missing
      env := env
      clock := ← readClock }
  let known ← (List.range 3).foldlM
    (fun known _ => readEntries known (App.consulted (start.withFiles known) args)) []
  let report := App.run (start.withFiles known) args
  report.output.forM IO.println
  report.events.forM fun e => IO.eprintln e.line
  match report.error with
  | some e => IO.eprintln ("\nError: " ++ e ++ "\n")
  | none => pure ()
  return report.status

end ResourceQuery

/-- The program. -/
def main (args : List String) : IO UInt32 :=
  ResourceQuery.runMain args
