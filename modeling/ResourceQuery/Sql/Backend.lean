/-!
# Sql — Backend

The databases a query can be written for.
-/

namespace ResourceQuery

/-- A database product. -/
inductive Backend where
  | sqlite
  | postgres
  deriving DecidableEq, Repr, Inhabited

/-- The name of a backend. -/
def Backend.name : Backend → String
  | .sqlite => "sqlite"
  | .postgres => "postgres"

/-- The backend of a name. -/
def Backend.ofName? : String → Option Backend
  | "sqlite" => some .sqlite
  | "postgres" => some .postgres
  | _ => none

theorem Backend.ofName?_name : ∀ b : Backend, ofName? b.name = some b
  | .sqlite | .postgres => rfl

end ResourceQuery
