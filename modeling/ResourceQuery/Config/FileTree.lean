import ResourceQuery.Config.Path

/-!
# Config — FileTree

Files as a program finds them (`Files`), and a directory tree as a source of them.  A tree lists
files and directories by their components from the root on; what lies above a listed one is a
directory.  A path is followed component by component, each of which has to lead on from a
directory; `.` and nothing stay, and `..` goes up.
-/

namespace ResourceQuery

/-- What is found at a path. -/
inductive Entry where
  | missing
  | directory
  | text (content : String)
  /-- A file that is no text. -/
  | binary
  deriving DecidableEq, Repr

/-- Something is there. -/
def Entry.isPresent (e : Entry) : Bool :=
  e != .missing

/-- The files a program finds, by path. -/
abbrev Files := String → Entry

/-- A directory tree. -/
structure FileTree where
  /-- The working directory. -/
  cwd : List String
  files : List (List String × Entry)
  deriving Repr

namespace FileTree

/-- The components of a path. -/
def components (path : String) : List String :=
  (Text.segments '/' path.toList).map String.ofList

/-- The components that lead on. -/
def names (path : String) : List String :=
  (components path).filter fun c => c != "" && c != "."

/-- The components from the root on of a path that is seen from the working directory. -/
def namesFrom (cwd path : String) : List String :=
  if Path.isAbsolute path.toList then names path else names cwd ++ names path

/-- The tree of some files, the working directory and the home directory. -/
def ofList (place : Path.Place) (files : List (String × Entry)) : FileTree :=
  { cwd := names place.cwd
    files := files.map (fun (p, e) => (namesFrom place.cwd p, e)) ++
      [(names place.cwd, .directory), (names place.home, .directory)] }

/-- What the tree has in a place. -/
def entryAt (t : FileTree) (p : List String) : Entry :=
  match t.files.lookup p with
  | some e => e
  | none => if t.files.any fun f => p.isPrefixOf f.1 then .directory else .missing

/-- What is found on following components from a place. -/
def follow (t : FileTree) (p : List String) : List String → Entry
  | [] => t.entryAt p
  | c :: cs =>
      if t.entryAt p != .directory then .missing
      else if c = "" ∨ c = "." then t.follow p cs
      else if c = ".." then t.follow p.dropLast cs
      else t.follow (p ++ [c]) cs

/-- The files of a tree. -/
def read (t : FileTree) : Files := fun path =>
  if path.isEmpty then .missing
  else t.follow (if Path.isAbsolute path.toList then [] else t.cwd) (components path)

end FileTree
end ResourceQuery
