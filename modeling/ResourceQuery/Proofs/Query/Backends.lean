import ResourceQuery.Proofs.Query.Statement
import ResourceQuery.Proofs.Sql.Correspondence

/-!
# Query — Backends

A plan as each backend is given it.  A request is planned for all backends or for none
(`planFor_agree`): the errors are equal, and so is all of the plan but the spelling of its two
statements, which correspond lexeme by lexeme.
-/

namespace ResourceQuery

/-- A statement in the spelling of a backend. -/
structure WrittenStatement where
  text : String
  params : List SqlValue
  deriving DecidableEq, Repr

/-- The statement in the spelling of a backend. -/
def Statement.written (s : Statement) (b : Backend) : WrittenStatement :=
  ⟨s.text b, s.params⟩

/-- A plan in the spelling of a backend. -/
structure WrittenPlan where
  select : WrittenStatement
  count : WrittenStatement
  columns : List Projected
  page : UInt32
  limit : UInt32
  deriving DecidableEq, Repr

/-- The plan in the spelling of a backend. -/
def Plan.written (p : Plan) (b : Backend) : WrittenPlan where
  select := p.select.written b
  count := p.count.written b
  columns := p.columns
  page := p.page
  limit := p.limit

/-- The plan of a request in the spelling of a backend. -/
def planFor (b : Backend) (clock : Clock) (l : Limits) (t : Table) (a : AllowList)
    (o : QueryOptions) : Except Refusal WrittenPlan :=
  (plan clock l t a o).map fun p => p.written b

/-- A statement for SQLite and one for PostgreSQL bind the same values, and their texts correspond,
with a place for each of the values. -/
structure WrittenStatement.Agree (s u : WrittenStatement) : Prop where
  params : s.params = u.params
  text : Sql.Corresponds 0 (Sql.lexemes (Sql.tokens s.text)) (Sql.lexemes (Sql.tokens u.text))
    s.params.length

/-- A plan for SQLite and one for PostgreSQL are the same, but for the texts of their statements. -/
structure WrittenPlan.Agree (p q : WrittenPlan) : Prop where
  select : p.select.Agree q.select
  count : p.count.Agree q.count
  columns : p.columns = q.columns
  page : p.page = q.page
  limit : p.limit = q.limit

theorem Statement.agree_written {s : Statement} (hspaced : Piece.Spaced s.pieces)
    (hplaces : Piece.places s.pieces = List.range' 1 s.params.length) :
    (s.written .sqlite).Agree (s.written .postgres) where
  params := rfl
  text := by
    have h := hspaced.corresponds (n := 0) hplaces
    rwa [Nat.zero_add] at h

theorem Plan.agree_written (p : Plan) : (p.written .sqlite).Agree (p.written .postgres) where
  select := Statement.agree_written p.spaced_select p.places_select
  count := Statement.agree_written p.spaced_count p.places_count
  columns := rfl
  page := rfl
  limit := rfl

/-- **A request is refused for both backends alike, or planned alike.** -/
theorem planFor_agree (clock : Clock) (l : Limits) (t : Table) (a : AllowList) (o : QueryOptions) :
    (∃ r, planFor .sqlite clock l t a o = .error r ∧ planFor .postgres clock l t a o = .error r) ∨
      ∃ p q, planFor .sqlite clock l t a o = .ok p ∧ planFor .postgres clock l t a o = .ok q ∧
        p.Agree q := by
  rw [planFor, planFor]
  cases plan clock l t a o with
  | error r => exact .inl ⟨r, rfl, rfl⟩
  | ok p => exact .inr ⟨_, _, rfl, rfl, p.agree_written⟩

end ResourceQuery
