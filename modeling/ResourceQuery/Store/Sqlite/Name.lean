import ResourceQuery.Text.Percent

/-!
# Store — Sqlite — Name

The name under which SQLite opens a database.  Most names are paths.  One that starts with `file:` is
a URL: an authority that may only be empty or `localhost`, a path, and options, all of them
percent-encoded bytes, of which those from the first null on do not count.  Three options have a
meaning: the file layer, the sharing of the cache and the mode of use, which may not go beyond the
mode that is asked for otherwise.
-/

namespace ResourceQuery.Sqlite

/-- How a database is used, from the least to the most. -/
inductive Access where
  | none
  | read
  | write
  /-- Created where it is missing. -/
  | create
  deriving DecidableEq, Repr

/-- The order of the ways of use. -/
def Access.rank : Access → Nat
  | none => 0
  | read => 1
  | write => 2
  | create => 3

/-- The mode of use of a database. -/
structure Mode where
  access : Access
  /-- The database is held in memory, whatever its name. -/
  inMemory : Bool := false
  deriving DecidableEq, Repr

/-- The mode of a name. -/
def Mode.ofName? (name : List UInt8) : Option Mode :=
  if name = Text.utf8 "ro" then some ⟨.read, false⟩
  else if name = Text.utf8 "rw" then some ⟨.write, false⟩
  else if name = Text.utf8 "rwc" then some ⟨.create, false⟩
  else if name = Text.utf8 "memory" then some ⟨.none, true⟩
  else none

/-- A mode may take the place of another one: it allows no more, or the other is in memory. -/
def Mode.allows (old new : Mode) : Bool :=
  old.inMemory || new.access.rank ≤ old.access.rank

/-- What SQLite opens. -/
structure Source where
  path : List UInt8
  mode : Mode
  /-- The file layer, if it is not the usual one. -/
  layer : Option (List UInt8) := none
  deriving DecidableEq, Repr

namespace Source

/-- The bytes before the first null. -/
def beforeNull (bs : List UInt8) : List UInt8 :=
  bs.takeWhile fun b => b != 0

/-- The bytes that a part of a name stands for. -/
def decode (bs : List UInt8) : List UInt8 :=
  beforeNull (Text.percentBytes bs)

/-- The options between ampersands, each a name, an equals sign and a value; one without a name does
not count. -/
def options (bs : List UInt8) : List (List UInt8 × List UInt8) :=
  let pairs := (Text.segments (Text.byte '&') bs).map fun p =>
    let (name, value) := Text.cutFirst (Text.byte '=') p
    (decode name, decode (value.getD []))
  pairs.filter fun p => !p.1.isEmpty

/-- What is opened with one more option. -/
def set? (s : Source) (name value : List UInt8) : Option Source :=
  if name = Text.utf8 "vfs" then some { s with layer := some value }
  else if name = Text.utf8 "cache" then
    if value = Text.utf8 "shared" ∨ value = Text.utf8 "private" then some s else none
  else if name = Text.utf8 "mode" then
    match Mode.ofName? value with
    | some m => if s.mode.allows m then some { s with mode := m } else none
    | none => none
  else some s

/-- What follows the authority, which comes after two slashes and ends before another one. -/
def afterAuthority? (bs : List UInt8) : Option (List UInt8) :=
  let isInside (b : UInt8) := b != Text.byte '/'
  if (Text.utf8 "//").isPrefixOf bs then
    let authority := (bs.drop 2).takeWhile isInside
    if authority = [] ∨ authority = Text.utf8 "localhost" then
      some ((bs.drop 2).dropWhile isInside)
    else none
  else some bs

/-- What a name that is a URL opens, given what follows the scheme.  The options come after a
question mark, and nothing counts from a `#` on. -/
def ofUrl? (mode : Mode) (bs : List UInt8) : Option Source := do
  let bs ← afterAuthority? bs
  let (bs, _) := Text.cutFirst (Text.byte '#') bs
  let (path, query) := Text.cutFirst (Text.byte '?') bs
  (options (query.getD [])).foldlM (fun s o => s.set? o.1 o.2) { path := decode path, mode }

/-- The scheme of the names that are URLs. -/
def scheme : List UInt8 :=
  Text.utf8 "file:"

/-- What a name opens. -/
def ofName? (mode : Mode) (name : List UInt8) : Option Source :=
  if scheme.isPrefixOf name then ofUrl? mode (name.drop scheme.length)
  else some { path := name, mode }

end Source
end ResourceQuery.Sqlite
