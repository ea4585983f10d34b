import ResourceQuery.Schema.Column
import ResourceQuery.Sql.Piece
import ResourceQuery.Sql.Value

/-!
# Sql — Predicate

Conditions on rows.  `Predicate.pieces n p` is the text of `p` after `n` values have been bound: the
values of `p`, in the order `Predicate.params` lists them, are numbered from `n + 1` on.
-/

namespace ResourceQuery

/-- A comparison. -/
inductive Comparison where
  | eq
  | ne
  | gt
  | lt
  | gte
  | lte
  deriving DecidableEq, Repr

namespace Comparison

/-- The name of a comparison. -/
def name : Comparison → String
  | eq => "eq"
  | ne => "ne"
  | gt => "gt"
  | lt => "lt"
  | gte => "gte"
  | lte => "lte"

/-- The sign of a comparison. -/
def sign : Comparison → String
  | eq => "="
  | ne => "<>"
  | gt => ">"
  | lt => "<"
  | gte => ">="
  | lte => "<="

/-- The comparison of a name. -/
def ofName? : String → Option Comparison
  | "eq" => some eq
  | "ne" => some ne
  | "gt" => some gt
  | "lt" => some lt
  | "gte" => some gte
  | "lte" => some lte
  | _ => none

theorem ofName?_name : ∀ c : Comparison, ofName? c.name = some c
  | eq | ne | gt | lt | gte | lte => rfl

end Comparison

/-- A condition on a row. -/
inductive Predicate where
  | compare (column : Column) (op : Comparison) (value : SqlValue)
  | isNull (column : Column) (negated : Bool)
  /-- The column's text matches a pattern, without regard to case. -/
  | like (column : Column) (pattern : String) (negated : Bool)
  | inList (column : Column) (values : List SqlValue) (negated : Bool)
  /-- Both bounds are included. -/
  | between (column : Column) (low high : SqlValue)
  /-- At least one of these holds. -/
  | any (ps : List Predicate)
  deriving Repr

instance : Inhabited Predicate := ⟨.any []⟩

namespace Predicate

mutual

/-- The values a condition binds, from left to right. -/
def params : Predicate → List SqlValue
  | compare _ _ v => [v]
  | isNull _ _ => []
  | like _ pattern _ => [.text pattern]
  | inList _ vs _ => vs
  | between _ low high => [low, high]
  | any ps => paramsList ps
termination_by structural p => p

/-- The values some conditions bind, from left to right. -/
def paramsList : List Predicate → List SqlValue
  | [] => []
  | p :: ps => p.params ++ paramsList ps
termination_by structural ps => ps

end

theorem paramsList_append (ps qs : List Predicate) :
    paramsList (ps ++ qs) = paramsList ps ++ paramsList qs := by
  induction ps with
  | nil => rfl
  | cons p ps ih => simp [paramsList, ih]

/-- The places of `count` values after the first `n`. -/
def holes (n count : Nat) : List Piece :=
  Piece.joined ", " ((List.range count).map fun i => [.hole (n + i + 1)])

/-- A column where its text is called for. -/
def textPiece (c : Column) : Piece :=
  if c.type = .text then .name c.name else .asText c.name

mutual

/-- The text of a condition that comes after `n` bound values. -/
def pieces (n : Nat) : Predicate → List Piece
  | compare c op _ => [.name c.name, .words (" " ++ op.sign ++ " "), .hole (n + 1)]
  | isNull c negated => [.name c.name, .words (if negated then " IS NOT NULL" else " IS NULL")]
  | like c _ negated => Piece.matching (textPiece c) negated (n + 1)
  | inList c vs negated =>
      .name c.name :: .words (if negated then " NOT IN (" else " IN (") ::
        holes n vs.length ++ [.words ")"]
  | between c _ _ =>
      [.name c.name, .words " BETWEEN ", .hole (n + 1), .words " AND ", .hole (n + 2)]
  | any ps => .words "(" :: piecesList " OR " n ps ++ [.words ")"]
termination_by structural p => p

/-- The texts of some conditions, `sep` between each two, after `n` bound values. -/
def piecesList (sep : String) (n : Nat) : List Predicate → List Piece
  | [] => []
  | [p] => p.pieces n
  | p :: ps => p.pieces n ++ .words sep :: piecesList sep (n + p.params.length) ps
termination_by structural ps => ps

end

/-- The clause that all of some conditions hold, after `n` bound values; nothing if there are
none. -/
def whereClause (n : Nat) : List Predicate → List Piece
  | [] => []
  | p :: ps => .words " WHERE " :: piecesList " AND " n (p :: ps)

end Predicate
end ResourceQuery
