import ResourceQuery.Json.Value
import ResourceQuery.Json.Record
import ResourceQuery.Schema.AllowList
import ResourceQuery.Schema.Table

/-!
# Schema — Resource

A resource is a table declared in a configuration file, under a name of its own, with the fields
callers may touch: all declared ones unless the file lists some.

`Resource.ofJson?` reads the declaration.  A column is given by its type alone or as a record with
a physical name, the type or both; a column without a type holds text.
-/

namespace ResourceQuery

/-- A field's column as declared. -/
structure ColumnSpec where
  /-- The physical name, if it is not the field's. -/
  column : Option String
  type : ColumnType
  deriving DecidableEq, Repr

/-- A queryable resource. -/
structure Resource where
  name : String
  table : String
  columns : List (String × ColumnSpec)
  deletedAt : Option String := none
  allowed : Option (List String) := none
  deriving DecidableEq, Repr

namespace Resource

/-- The declaration of the resource's table. -/
def declaration (r : Resource) : Declaration :=
  { name := r.table
    fields := r.columns.map fun (f, s) => (f, ⟨s.column.getD f, s.type⟩)
    deletedAt := r.deletedAt }

/-- The resource's table. -/
def build (r : Resource) : Except DataError Table :=
  r.declaration.build

/-- The fields callers may touch. -/
def allowList (r : Resource) : AllowList :=
  .ofList (r.allowed.getD (r.columns.map Prod.fst))

end Resource

/-- A column type: its name, or an object with the name as its only key and null in it. -/
def ColumnType.ofJson? : Json → Option ColumnType
  | .str s => ofName? s
  | .obj [(k, .null)] => ofName? k
  | _ => none

/-- A column as declared. -/
def ColumnSpec.ofJson? (j : Json) : Option ColumnSpec :=
  match ColumnType.ofJson? j with
  | some type => some ⟨none, type⟩
  | none =>
      match j with
      | .obj ms => do
          let column ← Json.optional Json.string? (ms.lookup "column")
          let type ← match ms.lookup "type" with
            | some t => ColumnType.ofJson? t
            | none => some .text
          return ⟨column, type⟩
      | _ => none

/-- The columns of a resource, in the order of the object's keys. -/
def columnsOfJson? (j : Json) : Option (List (String × ColumnSpec)) :=
  match j.merged with
  | .obj ms => ms.mapM fun (f, spec) => (ColumnSpec.ofJson? spec).map fun s => (f, s)
  | _ => none

/-- The fields of a resource, in the order of a record. -/
def Resource.keys : List String :=
  ["name", "table", "columns", "soft_delete_column", "allowed_columns"]

/-- A resource as declared. -/
def Resource.ofJson? (j : Json) : Option Resource := do
  let fields ← j.record? Resource.keys 3
  match fields with
  | [some name, some table, some columns, deletedAt, allowed] =>
      return {
        name := ← Json.string? name
        table := ← Json.string? table
        columns := ← columnsOfJson? columns
        deletedAt := ← Json.optional Json.string? deletedAt
        allowed := ← Json.optional Json.strings? allowed }
  | _ => none

end ResourceQuery
