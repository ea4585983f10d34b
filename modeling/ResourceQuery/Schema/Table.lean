import ResourceQuery.Schema.Column
import ResourceQuery.Store.Error
import ResourceQuery.Text.Identifier

/-!
# Schema — Table

A table is declared by its name, its fields in order, each with the column behind it, and the
column that marks deleted rows, if it has one.  `Declaration.build` checks a declaration: every
name is an identifier and no field is declared twice.  Fields are looked up by name; a name that
was not declared has no column.
-/

namespace ResourceQuery

/-- A queryable table. -/
structure Table where
  name : String
  /-- Fields in declaration order. -/
  fields : List (String × Column)
  /-- The physical column that marks deleted rows. -/
  deletedAt : Option String
  deriving DecidableEq, Repr

namespace Table

/-- The column behind a field. -/
def column? (t : Table) (field : String) : Option Column :=
  t.fields.lookup field

/-- The field is declared. -/
def hasField (t : Table) (field : String) : Bool :=
  (t.column? field).isSome

end Table

/-- A table as it is being declared. -/
structure Declaration where
  name : String
  fields : List (String × Column) := []
  deletedAt : Option String := none

namespace Declaration

/-- One more field, backed by `column`. -/
def mapped (d : Declaration) (field column : String) (type : ColumnType) : Declaration :=
  { d with fields := d.fields ++ [(field, ⟨column, type⟩)] }

/-- One more field, backed by the column of its name. -/
def field (d : Declaration) (name : String) (type : ColumnType) : Declaration :=
  d.mapped name name type

/-- The column that marks deleted rows. -/
def softDelete (d : Declaration) (column : String) : Declaration :=
  { d with deletedAt := some column }

/-- Checks the fields in order, those in `seen` being declared already. -/
def checkFields (table : String) (seen : List String) :
    List (String × Column) → Except DataError Unit
  | [] => .ok ()
  | (f, c) :: fs =>
      if !Text.isIdentifier f || !Text.isIdentifier c.name then
        .error (.config ("Invalid column on " ++ table ++ ": " ++ f ++ " -> " ++ c.name))
      else if seen.contains f then
        .error (.config ("Duplicate field on " ++ table ++ ": " ++ f))
      else checkFields table (f :: seen) fs

/-- The table, if the declaration is sound. -/
def build (d : Declaration) : Except DataError Table :=
  if !Text.isIdentifier d.name then .error (.config ("Invalid table name: " ++ d.name))
  else
    let badMark := match d.deletedAt with
      | some c => if Text.isIdentifier c then none else some c
      | none => none
    match badMark with
    | some c =>
        .error (.config ("Invalid soft delete column on " ++ d.name ++ ": " ++ c))
    | none => (checkFields d.name [] d.fields).map fun _ => ⟨d.name, d.fields, d.deletedAt⟩

end Declaration
end ResourceQuery
