/-!
# Schema — Column

The storage types of columns, and columns as a table declares them: a logical field is backed by a
physical column of a type.
-/

namespace ResourceQuery

/-- What a column stores. -/
inductive ColumnType where
  | text
  | integer
  | real
  | boolean
  | timestamp
  deriving DecidableEq, Repr, Inhabited

/-- The name of a type. -/
def ColumnType.name : ColumnType → String
  | .text => "text"
  | .integer => "integer"
  | .real => "real"
  | .boolean => "boolean"
  | .timestamp => "timestamp"

/-- The type of a name. -/
def ColumnType.ofName? : String → Option ColumnType
  | "text" => some .text
  | "integer" => some .integer
  | "real" => some .real
  | "boolean" => some .boolean
  | "timestamp" => some .timestamp
  | _ => none

theorem ColumnType.ofName?_name : ∀ t : ColumnType, ofName? t.name = some t
  | .text | .integer | .real | .boolean | .timestamp => rfl

/-- A physical column. -/
structure Column where
  name : String
  type : ColumnType
  deriving DecidableEq, Repr

/-- A selected column, under the field it is returned as. -/
structure Projected where
  field : String
  column : Column
  deriving DecidableEq, Repr

end ResourceQuery
