import ResourceQuery.Proofs.Query.Plan
import ResourceQuery.Proofs.Sql.Lexeme

/-!
# Query — the pieces of a plan's statements

* `Plan.spaced_select`, `Plan.spaced_count`: the pieces of both statements are spaced, so their
  texts are read piece by piece.
* `Plan.places_select`, `Plan.places_count`: they have a place for each value they bind.
-/

namespace ResourceQuery.Plan

open Piece (Separates Spaced)

theorem spaced_source (p : Plan) : Spaced p.source := by
  have hfrom : Separates " FROM " := by decide
  have hclause : Spaced (Predicate.whereClause 0 p.conditions) := by
    rw [Predicate.whereClause_eq]
    exact Form.spaced_whereClause 0 _
  have hstart : (Predicate.whereClause 0 p.conditions).head?.any Piece.startsSolid = false := by
    cases p.conditions <;> rfl
  exact .separator hfrom (.cons trivial hstart hclause)

theorem spaced_orderClause (p : Plan) : Spaced p.orderClause := by
  rw [orderClause]
  split
  · rename_i c d _
    have horder : Separates " ORDER BY " := by decide
    have hkeyword : (Piece.words (" " ++ d.keyword)).Neutral := by
      cases d <;> decide
    have hstart : (Piece.words (" " ++ d.keyword)).startsSolid = false := by
      cases d <;> decide
    exact .separator horder (.cons trivial hstart (.single hkeyword))
  · trivial

theorem spaced_ending (p : Plan) : Spaced p.ending := by
  have hspace : Separates " " := by decide
  exact p.spaced_orderClause.append_words hspace (.single trivial)

theorem head_ending (p : Plan) : p.ending.head?.any Piece.startsSolid = false := by
  rw [ending, orderClause]
  split <;> rfl

theorem spaced_heading (p : Plan) : Spaced p.heading := by
  have hselect : (Piece.words "SELECT ").Neutral := by decide
  have hopen : (Piece.words "SELECT ").endsSolid = false := by decide
  have hcomma : Separates ", " := by decide
  have hcolumns : Spaced (Piece.joined ", " (p.columns.map fun c => [.name c.column.name])) := by
    refine .joined hcomma fun part hpart => ?_
    obtain ⟨c, -, rfl⟩ := List.mem_map.mp hpart
    exact .single trivial
  exact .ofOpen hselect hopen hcolumns

/-- **The text of the statement for the rows is read piece by piece.** -/
theorem spaced_select (p : Plan) : Spaced p.select.pieces := by
  rw [select_pieces]
  exact (p.spaced_heading.append p.spaced_source rfl).append p.spaced_ending p.head_ending

/-- **The text of the statement for their number is read piece by piece.** -/
theorem spaced_count (p : Plan) : Spaced p.count.pieces := by
  have hcount : (Piece.words "SELECT COUNT(*)").Neutral := by decide
  exact .ofOpen hcount (by decide) p.spaced_source

/-! ### Places -/

theorem places_source (p : Plan) :
    Piece.places p.source = List.range' 1 (Predicate.paramsList p.conditions).length :=
  Predicate.places_whereClause 0 p.conditions

theorem places_heading (p : Plan) : Piece.places p.heading = [] := by
  show Piece.places (Piece.joined ", " (p.columns.map fun c => [.name c.column.name])) = []
  rw [Piece.places_joined, List.flatMap_map, List.flatMap_eq_nil_iff]
  intro c _
  rfl

theorem places_ending (p : Plan) : Piece.places p.ending = [] := by
  rw [ending, orderClause]
  split <;> rfl

/-- **The statement for the rows has a place for each value it binds, numbered in turn.** -/
theorem places_select (p : Plan) :
    Piece.places p.select.pieces = List.range' 1 p.select.params.length := by
  rw [select_pieces, Piece.places_append, Piece.places_append, places_heading, places_source,
    places_ending, List.nil_append, List.append_nil]
  rfl

/-- **So has the statement for their number.** -/
theorem places_count (p : Plan) :
    Piece.places p.count.pieces = List.range' 1 p.count.params.length :=
  p.places_source

end ResourceQuery.Plan
