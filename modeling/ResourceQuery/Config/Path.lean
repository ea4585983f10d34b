import ResourceQuery.Text.Blank

/-!
# Config — Path

Paths as a user writes them.  `Path.expand` takes off the white space at both ends, puts the home
directory in place of a leading `~` that stands alone or before a slash of either kind, and makes
what is still relative absolute.  Joining an absolute path to a directory gives that path.
-/

namespace ResourceQuery.Path

/-- The path starts at the root. -/
def isAbsolute : List Char → Bool
  | '/' :: _ => true
  | _ => false

/-- `rest` seen from the directory `base`. -/
def join (base rest : List Char) : List Char :=
  if isAbsolute rest then rest
  else if base.getLast? = some '/' then base ++ rest
  else base ++ '/' :: rest

/-- A path with the home directory in place of `~`. -/
def expandHome (home path : List Char) : List Char :=
  match path with
  | ['~'] => home
  | '~' :: c :: rest => if c = '/' ∨ c = '\\' then join home rest else path
  | _ => path

/-- The absolute path of one that a user writes. -/
def expandChars (home cwd path : List Char) : List Char :=
  let p := expandHome home (Text.trimChars path)
  if isAbsolute p then p else join cwd p

/-- Where the program runs. -/
structure Place where
  home : String
  cwd : String
  deriving DecidableEq, Repr

/-- The absolute path of one that a user writes. -/
def expand (place : Place) (path : String) : String :=
  String.ofList (expandChars place.home.toList place.cwd.toList path.toList)

end ResourceQuery.Path
