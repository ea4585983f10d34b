import ResourceQuery.Sql.Backend

/-!
# Sql — Piece

The pieces statements are made of.  Each backend spells a piece its own way: only a piece's `chars`
depend on the backend, never which pieces a statement has.

* A name stands between double quotes, its own double quotes doubled.
* The `k`-th bound value is `?` for SQLite and `$k` for PostgreSQL.
* Matching without regard to case is `LIKE` for SQLite and `ILIKE` for PostgreSQL.
* A column as text is `CAST(x AS TEXT)` for SQLite and `x::TEXT` for PostgreSQL.
-/

namespace ResourceQuery

/-- A piece of a statement. -/
inductive Piece where
  /-- Words and marks that every backend writes alike. -/
  | words (s : String)
  /-- The name of a table or column. -/
  | name (ident : String)
  /-- A column of another type, as text. -/
  | asText (ident : String)
  /-- The place of the bound value of this number, from 1. -/
  | hole (k : Nat)
  /-- Matching a pattern, or not matching it, without regard to case. -/
  | likeness (negated : Bool)
  /-- A page of rows: how many, and how many before it. -/
  | window (limit offset : Nat)
  deriving DecidableEq, Repr

namespace Piece

/-- A name without its quotes, each double quote doubled. -/
def doubleQuotes : List Char → List Char
  | [] => []
  | c :: cs => if c = '"' then '"' :: '"' :: doubleQuotes cs else c :: doubleQuotes cs

/-- A name between double quotes. -/
def quotedName (ident : String) : List Char :=
  '"' :: doubleQuotes ident.toList ++ ['"']

/-- A piece as a backend spells it. -/
def chars (b : Backend) : Piece → List Char
  | words s => s.toList
  | name ident => quotedName ident
  | asText ident =>
      match b with
      | .sqlite => "CAST(".toList ++ quotedName ident ++ " AS TEXT)".toList
      | .postgres => quotedName ident ++ "::TEXT".toList
  | hole k =>
      match b with
      | .sqlite => ['?']
      | .postgres => '$' :: (toString k).toList
  | likeness negated =>
      match b with
      | .sqlite => if negated then "NOT LIKE".toList else "LIKE".toList
      | .postgres => if negated then "NOT ILIKE".toList else "ILIKE".toList
  | window limit offset => ("LIMIT " ++ toString limit ++ " OFFSET " ++ toString offset).toList

/-- Pieces put together, as a backend spells them. -/
def text (b : Backend) (ps : List Piece) : String :=
  String.ofList (ps.flatMap (chars b))

theorem text_append (b : Backend) (ps qs : List Piece) :
    text b (ps ++ qs) = text b ps ++ text b qs := by
  simp [text]

/-- The parts with a separator between each two. -/
def joined (sep : String) : List (List Piece) → List Piece
  | [] => []
  | [p] => p
  | p :: ps => p ++ words sep :: joined sep ps

/-- `expr` matches the pattern bound at `k`; a backslash in the pattern makes the next character
literal. -/
def matching (expr : Piece) (negated : Bool) (k : Nat) : List Piece :=
  [expr, words " ", likeness negated, words " ", hole k, words " ESCAPE '\\'"]

end Piece
end ResourceQuery
