import ResourceQuery.Store.Cell
import ResourceQuery.Store.Error

/-!
# Store — Row

Rows as they are returned: the fields of a request's columns with their values, in order.

`Row.build` reads a row's cells column by column and stops at the first that cannot be read.
-/

namespace ResourceQuery

/-- A row of a page. -/
abbrev Row := List (String × Json)

namespace Row

/-- The cells from number `i` on, read for `columns`; the columns before them have given `row`. -/
def buildFrom (b : Backend) (read : Nat → ColumnType → Except String Cell) (i : Nat) (row : Row) :
    List Projected → Except DataError Row
  | [] => .ok row
  | c :: cs =>
      match read i c.column.type with
      | .error reason => .error (.decode b c.column.name reason)
      | .ok cell => buildFrom b read (i + 1) (Json.put c.field cell.toJson row) cs

/-- The row of some columns, `read` giving the cell of a number as a type. -/
def build (b : Backend) (read : Nat → ColumnType → Except String Cell) (columns : List Projected) :
    Except DataError Row :=
  buildFrom b read 0 [] columns

/-- A stored row as cells of SQLite. -/
def readStored (cells : List Stored) (i : Nat) (type : ColumnType) : Except String Cell :=
  match cells[i]?.bind fun v => v.read? type with
  | some c => .ok c
  | none => .error elided

/-- The rows of a table of SQLite. -/
def ofStored (columns : List Projected) (rows : List (List Stored)) : Except DataError (List Row) :=
  rows.mapM fun cells => build .sqlite (readStored cells) columns

end Row
end ResourceQuery
