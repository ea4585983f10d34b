import ResourceQuery.Config.FileTree
import ResourceQuery.Text.Percent

/-!
# Store — Location

Where a database file is: the names that lead to it from the root on.  A name is a sequence of
bytes.  A path is resolved name by name; nothing and `.` stay, and `..` goes up, if there is anything
to go up from.

`resolve?` follows a path only over places that there can be: their paths are short enough, and none
of them is below a file.  They need not be there.
-/

namespace ResourceQuery

/-- The names from the root on. -/
abbrev Location := List (List UInt8)

namespace Location

/-- The byte between two names. -/
def slash : UInt8 := Text.byte '/'

/-- The byte of which `.` and `..` are made. -/
def point : UInt8 := Text.byte '.'

/-- The location above. -/
def parent (l : Location) : Location :=
  l.dropLast

/-- The location one name further. -/
def step (l : Location) (name : List UInt8) : Location :=
  if name = [] ∨ name = [point] then l
  else if name = [point, point] then l.parent
  else l ++ [name]

/-- The locations on the way over some names, the first and the last one included. -/
def way (l : Location) : List (List UInt8) → List Location
  | [] => [l]
  | name :: names => l :: way (l.step name) names

/-- The path of a location. -/
def path (l : Location) : List UInt8 :=
  if l.isEmpty then [slash] else l.flatMap fun name => slash :: name

/-- What is found at a location. -/
def entry (files : Files) (l : Location) : Entry :=
  match Text.ofUtf8? l.path with
  | some p => files p
  | none => .missing

/-- The longest path. -/
def maxPath : Nat := 511

/-- The longest name. -/
def maxName : Nat := 255

/-- There can be something at a location. -/
def canBe (files : Files) (l : Location) : Bool :=
  l.path.length ≤ maxPath &&
    match l.getLast? with
    | none => true
    | some name =>
        name.length ≤ maxName &&
          match l.parent.entry files with
          | .text _ | .binary => false
          | .directory | .missing => true

/-- The locations on the way that a path leads, seen from a working directory. -/
def wayTo (cwd : String) (path : List UInt8) : List Location :=
  let names := Text.segments slash path
  way [] (if path.head? = some slash then names else Text.segments slash (Text.utf8 cwd) ++ names)

/-- The location that a path leads to, seen from a working directory. -/
def resolve? (files : Files) (cwd : String) (path : List UInt8) : Option Location :=
  let ls := wayTo cwd path
  if ls.all (canBe files) then ls.getLast? else none

end Location
end ResourceQuery
