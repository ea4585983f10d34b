import ResourceQuery.Store.Error
import ResourceQuery.Store.Sqlite.Name

/-!
# Store — Sqlite — Url

The URL of a SQLite database: `sqlite:` or `sqlite://` in front, or neither, then `:memory:` or a
percent-encoded name, and after a question mark some settings.

`SqliteUrl.source` is what such a URL makes SQLite open.  The name is given to SQLite as it is,
which may be a URL in its turn; but where the settings ask for a file layer or for a database that
never changes, it stands for a path.
-/

namespace ResourceQuery

/-- What a URL of SQLite asks for. -/
structure SqliteUrl where
  name : List UInt8
  inMemory : Bool := false
  readOnly : Bool := false
  create : Bool := false
  /-- The database never changes. -/
  immutable : Bool := false
  /-- The file layer, if it is not the usual one. -/
  layer : Option String := none
  deriving DecidableEq, Repr

namespace SqliteUrl

/-- The URL with one more setting. -/
def set? (u : SqliteUrl) (key value : String) : Option SqliteUrl :=
  match key with
  | "mode" =>
      match value with
      | "ro" => some { u with readOnly := true }
      | "rw" => some u
      | "rwc" => some { u with create := true }
      | "memory" => some { u with inMemory := true }
      | _ => none
  | "cache" => if value = "private" ∨ value = "shared" then some u else none
  | "immutable" =>
      match value with
      | "true" | "1" => some { u with immutable := true }
      | "false" | "0" => some { u with immutable := false }
      | _ => none
  | "vfs" => some { u with layer := some value }
  | _ => none

/-- The database of a name, without settings. -/
def ofName? (cs : List Char) : Option SqliteUrl :=
  if cs = ":memory:".toList then some { name := [], inMemory := true }
  else (Text.percentDecode? (String.ofList cs)).map fun s => { name := Text.utf8 s }

/-- The URL a text writes. -/
def parse? (url : String) : Option SqliteUrl := do
  let cs := Text.dropLeading "sqlite:".toList (Text.dropLeading "sqlite://".toList url.toList)
  let (name, settings) := Text.cutFirst '?' cs
  (Text.formPairs (settings.getD [])).foldlM (fun u s => u.set? s.1 s.2) (← ofName? name)

/-- The mode of use that is asked for. -/
def mode (u : SqliteUrl) : Sqlite.Mode :=
  { access := if u.readOnly then .read else if u.create then .create else .write
    inMemory := u.inMemory }

/-- The name stands for a path. -/
def isPath (u : SqliteUrl) : Bool :=
  u.immutable || u.layer.isSome

/-- What SQLite opens.  A name with a null cannot be given to it, and one that is malformed it
refuses. -/
def source (u : SqliteUrl) : Except Fault Sqlite.Source :=
  if u.isPath then
    .ok {
      path := Sqlite.Source.beforeNull u.name
      mode := u.mode
      layer := u.layer.map fun l => Sqlite.Source.beforeNull (Text.utf8 l) }
  else if u.name.contains 0 then .error .io
  else
    match Sqlite.Source.ofName? u.mode u.name with
    | some s => .ok s
    | none => .error .execution

end SqliteUrl
end ResourceQuery
