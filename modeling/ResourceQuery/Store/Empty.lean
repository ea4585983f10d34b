import ResourceQuery.Number.Power
import ResourceQuery.Sql.Depth
import ResourceQuery.Store.Basic
import ResourceQuery.Text.Fold

/-!
# Store — Empty

A SQLite database without any table of a user.  It has the tables that list what a database holds,
and those that list what their arguments hold, of which a statement gives none, and all of them are
empty; a column that a table lacks is taken for a text, which does no harm there.

A statement on another table fails, and so does one whose window starts beyond 64 bits, whose
condition is too deep, that binds too many values or asks for too many columns.
-/

namespace ResourceQuery.Store

/-- The tables every database has. -/
def schemaTables : List String :=
  ["sqlite_schema", "sqlite_master", "sqlite_temp_schema", "sqlite_temp_master", "dbstat"]

/-- The tables that are made from arguments. -/
def argumentTables : List String :=
  ["json_each", "json_tree", "pragma_table_info", "pragma_table_xinfo", "pragma_index_info",
    "pragma_index_xinfo", "pragma_index_list", "pragma_foreign_key_list",
    "pragma_foreign_key_check"]

/-- How deep a condition may be. -/
def maxDepth : Nat := 1000

/-- How many values a statement may bind. -/
def maxParams : Nat := 32766

/-- How many columns a statement may ask for. -/
def maxColumns : Nat := 2000

/-- The table a statement reads from. -/
def tableOf? (s : Statement) : Option String :=
  match s.pieces.dropWhile fun p => p != .words " FROM " with
  | _ :: .name t :: _ => some t
  | _ => none

/-- The window of a statement starts within 64 bits. -/
def windowFits (s : Statement) : Bool :=
  s.pieces.all fun p => match p with
    | .window _ offset => offset < signedCount
    | _ => true

/-- A database without any table of a user carries out a statement. -/
def runsOnEmpty (s : Statement) : Bool :=
  windowFits s && s.params.length ≤ maxParams && Sql.depth s ≤ maxDepth &&
    match tableOf? s with
    | some t => (schemaTables ++ argumentTables).any fun n => Text.sameAscii t.toList n.toList
    | none => false

/-- A database without any table of a user. -/
def empty : Store where
  rows s columns :=
    if columns.length ≤ maxColumns ∧ runsOnEmpty s then .ok []
    else .error (.ofFault .sqlite .execution)
  count s := if runsOnEmpty s then .ok 0 else .error (.ofFault .sqlite .execution)

end ResourceQuery.Store
