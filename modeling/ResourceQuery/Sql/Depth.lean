import ResourceQuery.Sql.Statement

/-!
# Sql — Depth

How deep the condition of a statement is, as SQLite takes it apart.  A column or a bound value has
depth 1, and whatever is made of parts is one deeper than the deepest of them.  Conditions joined by
`AND` or `OR` are taken two at a time from the left, so each further one makes the whole deeper.

The condition is read piece by piece; `DepthReading` is where the reading stands.
-/

namespace ResourceQuery.Sql

/-- What a reading is inside of. -/
inductive Inside where
  | condition
  /-- Bounds with `AND` between them. -/
  | bounds
  /-- A list of so many values, one of which is asked for, or none. -/
  | list (negated : Bool) (count : Nat)
  deriving DecidableEq, Repr

/-- Where the reading of a condition stands. -/
structure DepthReading where
  /-- The depth of the conditions joined so far; none at 0. -/
  joined : Nat := 0
  /-- The depth of the condition that is being read. -/
  current : Nat := 0
  /-- What is joined so far around each open bracket, the innermost first. -/
  outer : List Nat := []
  inside : Inside := .condition
  deriving DecidableEq, Repr

namespace DepthReading

/-- The depth of all conditions read at this level. -/
def total (r : DepthReading) : Nat :=
  if r.joined = 0 then r.current else max r.joined r.current + 1

/-- The depth added by a denial. -/
def denial (negated : Bool) : Nat :=
  if negated then 1 else 0

/-- The reading after some words.  A list of one value is compared with that value under a sign. -/
def words (r : DepthReading) (w : String) : DepthReading :=
  match w, r.inside with
  | " AND ", .bounds => { r with inside := .condition }
  | " AND ", _ | " OR ", _ => { r with joined := r.total, current := 0 }
  | "(", _ => { r with joined := 0, outer := r.joined :: r.outer }
  | ")", .list negated count =>
      let depth := if count = 1 then r.current + 2 else r.current + 1
      { r with current := depth + denial negated, inside := .condition }
  | ")", _ => { r with joined := r.outer.headD 0, current := r.total, outer := r.outer.tail }
  | " IN (", _ => { r with inside := .list false 0 }
  | " NOT IN (", _ => { r with inside := .list true 0 }
  | " BETWEEN ", _ => { r with current := r.current + 1, inside := .bounds }
  | " ", _ | ", ", _ | " ESCAPE '\\'", _ => r
  | _, _ => { r with current := r.current + 1 }

/-- The reading after a piece. -/
def next (r : DepthReading) : Piece → DepthReading
  | .words w => r.words w
  | .name _ => { r with current := 1 }
  | .asText _ => { r with current := 2 }
  | .hole _ =>
      match r.inside with
      | .list negated count => { r with inside := .list negated (count + 1) }
      | _ => r
  | .likeness negated => { r with current := r.current + 1 + denial negated }
  | .window _ _ => r

end DepthReading

/-- The pieces of a statement's condition. -/
def conditionOf (pieces : List Piece) : List Piece :=
  ((pieces.dropWhile fun p => p != .words " WHERE ").drop 1).takeWhile fun p =>
    p != .words " ORDER BY " && match p with
      | .window _ _ => false
      | _ => true

/-- The depth of a statement's condition; none has depth 0. -/
def depth (s : Statement) : Nat :=
  ((conditionOf s.pieces).foldl DepthReading.next {}).total

end ResourceQuery.Sql
