import ResourceQuery.Query.Page
import ResourceQuery.Query.Plan
import ResourceQuery.Store.Basic

/-!
# Query — Session

Searching a store.  A search is planned first, and a plan that fails asks the store nothing.  Then
the rows of the page are asked for, and once they are there, the number of all rows.  Each failure
of the store ends the search.

A session is a sequence of searches in one store whose answers may change in between.
-/

namespace ResourceQuery

/-- What a store has been asked. -/
inductive Call where
  | rows (s : Statement) (columns : List Projected)
  | count (s : Statement)
  deriving DecidableEq, Repr

/-- The statement of a call. -/
def Call.statement : Call → Statement
  | rows s _ => s
  | count s => s

/-- The calls of a search, in order, and what it comes to. -/
structure Outcome where
  calls : List Call
  result : Except Refusal ResultPage

/-- A failure of the store as the end of a search. -/
def Outcome.failed (calls : List Call) (e : DataError) : Outcome :=
  ⟨calls, .error (.query (.store e))⟩

/-- Carries out a plan. -/
def Plan.execute (p : Plan) (store : Store) : Outcome :=
  match store.rows p.select p.columns with
  | .error e => .failed [.rows p.select p.columns] e
  | .ok items =>
      match store.count p.count with
      | .error e => .failed [.rows p.select p.columns, .count p.count] e
      | .ok total =>
          ⟨[.rows p.select p.columns, .count p.count], .ok ⟨items, ⟨p.page, p.limit, total⟩⟩⟩

/-- What searches on a table depend on besides the request. -/
structure Engine where
  clock : Clock
  limits : Limits
  table : Table

/-- Carries out a request. -/
def Engine.search (e : Engine) (store : Store) (a : AllowList) (o : QueryOptions) : Outcome :=
  match plan e.clock e.limits e.table a o with
  | .error r => ⟨[], .error r⟩
  | .ok p => p.execute store

/-- Carries out a request as it comes in.  One that cannot be normalized asks the store nothing. -/
def Engine.serve (e : Engine) (store : Store) (a : AllowList) (r : ListRequest) : Outcome :=
  match r.normalize e.limits with
  | .error x => ⟨[], .error x⟩
  | .ok o => e.search store a o

/-- A change of the store's answers, then a search. -/
structure SessionStep where
  change : Change
  allowed : AllowList
  /-- The request, unless it could not be normalized. -/
  options : Except Refusal QueryOptions

/-- Carries out a step, the store having answered as `a` says before. -/
def Engine.step (e : Engine) (a : Answers) (s : SessionStep) : Answers × Outcome :=
  let a := a.after s.change
  match s.options with
  | .error r => (a, ⟨[], .error r⟩)
  | .ok o => (a, e.search a.store s.allowed o)

/-- The outcomes of a session. -/
def Engine.run (e : Engine) (a : Answers) : List SessionStep → List Outcome
  | [] => []
  | s :: steps =>
      let (a, outcome) := e.step a s
      outcome :: e.run a steps

end ResourceQuery
