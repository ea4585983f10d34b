import ResourceQuery.Store.Empty
import ResourceQuery.Store.Location
import ResourceQuery.Store.Sqlite.Url

/-!
# Store — Sqlite — Database

Opening a SQLite database.  In memory, under an empty name and on the layer that keeps files in
memory it is empty.  Otherwise its path has to lead to a file, or to where one can be created.

A file is not looked at when it is opened.  One of at most one byte is an empty database; any other
one is not a database, which the first statement finds out.
-/

namespace ResourceQuery.Sqlite

/-- The layers of files. -/
def fileLayers : List String :=
  ["unix", "unix-excl", "unix-dotfile", "unix-none"]

/-- The layer of files in memory. -/
def memoryLayer : String := "memdb"

/-- The longest path on the layer of files in memory. -/
def maxMemoryPath : Nat := 1016

/-- The longest path of a database file. -/
def maxFilePath : Nat := 504

/-- A store that answers no statement. -/
def unreadable : Store :=
  let e : DataError := .ofFault .sqlite .execution
  Answers.store { rowsFault := some e, countFault := some e }

/-- The store in a file of some size. -/
def ofSize (bytes : Nat) : Store :=
  if bytes ≤ 1 then .empty else unreadable

/-- The store at a location, if it can be opened. -/
def openAt? (files : Files) (access : Access) (l : Location) : Option Store :=
  if l.isEmpty || maxFilePath < l.path.length then none
  else match l.entry files with
    | .text s => some (ofSize s.utf8ByteSize)
    | .binary => some unreadable
    | .directory => none
    | .missing =>
        if access = .create ∧ l.parent.entry files = .directory then some .empty else none

namespace Source

/-- No file holds the database, whatever its layer. -/
def isFileless (s : Source) : Bool :=
  s.mode.inMemory || s.path.isEmpty || s.path == Text.utf8 ":memory:"

/-- The database is in a file. -/
def isFile (s : Source) : Bool :=
  !s.isFileless &&
    match s.layer with
    | none => true
    | some l => fileLayers.any fun n => Text.utf8 n == l

/-- The store that is opened. -/
def open? (files : Files) (cwd : String) (s : Source) : Option Store :=
  let known := match s.layer with
    | none => true
    | some l => (memoryLayer :: fileLayers).any fun n => Text.utf8 n == l
  if !known then none
  else if s.isFileless then some .empty
  else if s.isFile then
    (Location.resolve? files cwd s.path).bind (openAt? files s.mode.access)
  else if s.path.length ≤ maxMemoryPath then some .empty
  else none

/-- The locations that are looked at to open the database. -/
def looksAt (cwd : String) (s : Source) : List Location :=
  if s.isFile then Location.wayTo cwd s.path else []

end Source
end ResourceQuery.Sqlite
