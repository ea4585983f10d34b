import ResourceQuery.Sql.Piece
import ResourceQuery.Sql.Value

/-!
# Sql — Statement

A statement is its pieces and the values bound at its holes, in the order of their numbers.
-/

namespace ResourceQuery

/-- A statement with the values it binds. -/
structure Statement where
  pieces : List Piece
  params : List SqlValue
  deriving DecidableEq, Repr

/-- The text of a statement for a backend. -/
def Statement.text (s : Statement) (b : Backend) : String :=
  Piece.text b s.pieces

end ResourceQuery
