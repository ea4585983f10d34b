import ResourceQuery.Query.Compile
import ResourceQuery.Query.Options
import ResourceQuery.Sql.Statement

/-!
# Query — Plan

What a list request asks of a table: one list of conditions, the columns returned, an order and a
window.  A plan does not depend on the backend; its two statements, for a page of rows and for the
number of all rows, share their conditions and so the values they bind.

`plan` finds the conditions in a fixed order: that the row is not deleted, then those of the filter
in the order of the document, then the search.  The columns returned are all visible ones; the fields
asked for only have to name one of the allowed.
-/

namespace ResourceQuery

/-- What a list request asks of a table. -/
structure Plan where
  table : String
  conditions : List Predicate
  columns : List Projected
  order : Option (Column × SortDirection)
  page : UInt32
  limit : UInt32
  deriving Repr

namespace Plan

/-- The rows before the page. -/
def offset (p : Plan) : Nat :=
  (p.page.toNat - 1) * p.limit.toNat

/-- From where, and under which conditions. -/
def source (p : Plan) : List Piece :=
  .words " FROM " :: .name p.table :: Predicate.whereClause 0 p.conditions

/-- The order of the rows. -/
def orderClause (p : Plan) : List Piece :=
  match p.order with
  | some (c, d) => [.words " ORDER BY ", .name c.name, .words (" " ++ d.keyword)]
  | none => []

/-- The statement for the rows of the page. -/
def select (p : Plan) : Statement :=
  { pieces :=
      .words "SELECT " :: Piece.joined ", " (p.columns.map fun c => [.name c.column.name]) ++
        p.source ++ p.orderClause ++ [.words " ", Piece.window p.limit.toNat p.offset]
    params := Predicate.paramsList p.conditions }

/-- The statement for the number of all rows. -/
def count (p : Plan) : Statement :=
  { pieces := .words "SELECT COUNT(*)" :: p.source
    params := Predicate.paramsList p.conditions }

end Plan

/-- The condition that a row is not deleted, where the table marks deleted rows. -/
def liveness (t : Table) (o : QueryOptions) : List Predicate :=
  match o.excludeDeleted, t.deletedAt with
  | true, some c => [.isNull ⟨c, .timestamp⟩ false]
  | _, _ => []

/-- The conditions of a filter. -/
def filterConditions (clock : Clock) (l : Limits) (t : Table) (a : AllowList) (o : QueryOptions) :
    Except QueryError (List Predicate) :=
  match o.filter with
  | none => .ok []
  | some j =>
      match Filter.validate l j with
      | .error vs => .error (.invalidFilter vs)
      | .ok cs => (cs.mapM (Condition.compile clock t a)).map fun ps => ps.filterMap id

/-- The condition of a search. -/
def searchConditions (t : Table) (a : AllowList) (o : QueryOptions) : List Predicate :=
  match o.search with
  | none => []
  | some term => (search? t a term).toList

/-- The columns returned. -/
def project (t : Table) (a : AllowList) (o : QueryOptions) : Except QueryError (List Projected) :=
  -- the fields asked for open the gate, and choose nothing
  let gated := match o.fields with
    | some fs => !fs.any a.contains
    | none => false
  if gated then .error .noValidFields
  else match visibleColumns t a with
    | [] => .error .noValidFields
    | cs => .ok cs

/-- The column a request sorts by. -/
def sortColumn (t : Table) (a : AllowList) (o : QueryOptions) :
    Except QueryError (Option (Column × SortDirection)) :=
  match o.sort with
  | none => .ok none
  | some key =>
      -- an undeclared field and a hidden one are refused in the same words
      match t.column? key.field with
      | some c =>
          if a.contains key.field then .ok (some (c, key.direction))
          else .error (.invalidSortField key.field)
      | none => .error (.invalidSortField key.field)

/-- The part of a plan that the limits on pages do not touch. -/
def planPage (clock : Clock) (l : Limits) (t : Table) (a : AllowList) (o : QueryOptions)
    (limit : UInt32) : Except QueryError Plan := do
  let filters ← filterConditions clock l t a o
  let columns ← project t a o
  let order ← sortColumn t a o
  return {
    table := t.name
    conditions := liveness t o ++ filters ++ searchConditions t a o
    columns, order
    page := max o.page 1
    limit }

/-- The plan of a request. -/
def plan (clock : Clock) (l : Limits) (t : Table) (a : AllowList) (o : QueryOptions) :
    Except Refusal Plan :=
  match l.clamp? o.limit with
  | none => .error (.invertedBounds l.minLimit l.maxLimit)
  | some limit => (planPage clock l t a o limit).mapError .query

end ResourceQuery
