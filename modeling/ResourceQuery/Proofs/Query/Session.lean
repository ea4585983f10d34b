import ResourceQuery.Query.Session

/-!
# Query — what a session does

* `Answered`: what a search asks of the store, in order, and what it comes to.  A plan that fails
  asks nothing, and the first failure of the store ends the search.
* `Engine.search_eq_iff`: this is what a search does, and all it does, in any store.
* `runOn_append`: a session goes on as one that starts with what the store answers then.
* `session_lawful`: so each search of a session does what it does alone.
-/

namespace ResourceQuery

/-- What a search comes to that is planned so. -/
inductive Answered (store : Store) : Except Refusal Plan → Outcome → Prop where
  | refused {r : Refusal} : Answered store (.error r) ⟨[], .error r⟩
  /-- Without rows the number of all rows is not asked for. -/
  | noRows {p : Plan} {e : DataError} (rows : store.rows p.select p.columns = .error e) :
      Answered store (.ok p) ⟨[.rows p.select p.columns], .error (.query (.store e))⟩
  | noCount {p : Plan} {items : List Row} {e : DataError}
      (rows : store.rows p.select p.columns = .ok items) (count : store.count p.count = .error e) :
      Answered store (.ok p)
        ⟨[.rows p.select p.columns, .count p.count], .error (.query (.store e))⟩
  | found {p : Plan} {items : List Row} {total : UInt64}
      (rows : store.rows p.select p.columns = .ok items) (count : store.count p.count = .ok total) :
      Answered store (.ok p)
        ⟨[.rows p.select p.columns, .count p.count], .ok ⟨items, ⟨p.page, p.limit, total⟩⟩⟩

theorem Plan.execute_answered (p : Plan) (store : Store) :
    Answered store (.ok p) (p.execute store) := by
  rw [execute]
  cases hrows : store.rows p.select p.columns with
  | error e => exact .noRows hrows
  | ok items =>
      dsimp only
      cases hcount : store.count p.count with
      | error e => exact .noCount hrows hcount
      | ok total => exact .found hrows hcount

/-- A search comes to one outcome. -/
theorem Answered.unique {store : Store} {planned : Except Refusal Plan} {o o' : Outcome}
    (h : Answered store planned o) (h' : Answered store planned o') : o = o' := by
  cases h with
  | refused => cases h'; rfl
  | noRows rows =>
      cases h' with
      | noRows rows' => cases rows.symm.trans rows'; rfl
      | noCount rows' | found rows' => cases rows.symm.trans rows'
  | noCount rows count =>
      cases h' with
      | noRows rows' => cases rows.symm.trans rows'
      | noCount rows' count' => cases count.symm.trans count'; rfl
      | found _ count' => cases count.symm.trans count'
  | found rows count =>
      cases h' with
      | noRows rows' => cases rows.symm.trans rows'
      | noCount _ count' => cases count.symm.trans count'
      | found rows' count' =>
          cases rows.symm.trans rows'
          cases count.symm.trans count'
          rfl

namespace Engine

variable {e : Engine} {store : Store} {a : AllowList} {o : QueryOptions}

theorem search_answered (e : Engine) (store : Store) (a : AllowList) (o : QueryOptions) :
    Answered store (plan e.clock e.limits e.table a o) (e.search store a o) := by
  rw [search]
  cases plan e.clock e.limits e.table a o with
  | error r => exact .refused
  | ok p => exact p.execute_answered store

/-- **What a search asks of a store and what it comes to, in any store.** -/
theorem search_eq_iff {outcome : Outcome} :
    e.search store a o = outcome ↔
      Answered store (plan e.clock e.limits e.table a o) outcome := by
  constructor
  · rintro rfl
    exact e.search_answered store a o
  · exact fun h => (e.search_answered store a o).unique h

end Engine

/-! ### Sessions -/

/-- What a store answers after the changes of some steps. -/
def Answers.afterSteps (a : Answers) (steps : List SessionStep) : Answers :=
  steps.foldl (fun a s => a.after s.change) a

/-- A store that is not changed answers as before. -/
theorem Answers.after_unchanged (a : Answers) : a.after {} = a :=
  rfl

/-- The plan of a step. -/
def SessionStep.planned (s : SessionStep) (e : Engine) : Except Refusal Plan :=
  s.options.bind fun o => plan e.clock e.limits e.table s.allowed o

namespace Engine

theorem step_answers (e : Engine) (a : Answers) (s : SessionStep) :
    (e.step a s).1 = a.after s.change := by
  rw [step]
  split <;> rfl

/-- A step changes what the store answers, and then searches it. -/
theorem step_answered (e : Engine) (a : Answers) (s : SessionStep) :
    Answered (a.after s.change).store (s.planned e) (e.step a s).2 := by
  rw [step, SessionStep.planned]
  cases s.options with
  | error r => exact .refused
  | ok o => exact e.search_answered _ s.allowed o

theorem run_cons (e : Engine) (a : Answers) (s : SessionStep) (steps : List SessionStep) :
    e.run a (s :: steps) = (e.step a s).2 :: e.run (a.after s.change) steps := by
  rw [← step_answers e a s]
  rfl

/-- What a step comes to depends on the step and on what the store answers after its change. -/
theorem run_alone (e : Engine) (a : Answers) (s : SessionStep) :
    e.run (a.after s.change) [{ s with change := {} }] = [(e.step a s).2] := by
  have halone := e.step_answered (a.after s.change) { s with change := {} }
  rw [Answers.after_unchanged] at halone
  rw [run_cons, halone.unique (e.step_answered a s)]
  rfl

end Engine

/-- The outcomes of a session each search of which is on a table and at a time of its own. -/
def runOn (a : Answers) : List (Engine × SessionStep) → List Outcome
  | [] => []
  | (e, s) :: steps => (e.step a s).2 :: runOn (a.after s.change) steps

theorem Engine.run_eq_runOn (e : Engine) (a : Answers) (steps : List SessionStep) :
    e.run a steps = runOn a (steps.map fun s => (e, s)) := by
  induction steps generalizing a with
  | nil => rfl
  | cons s steps ih =>
      rw [run_cons, ih]
      rfl

/-- **A session goes on as one that starts with what the store answers then.** -/
theorem runOn_append (a : Answers) (before steps : List (Engine × SessionStep)) :
    runOn a (before ++ steps) =
      runOn a before ++ runOn (a.afterSteps (before.map Prod.snd)) steps := by
  induction before generalizing a with
  | nil => rfl
  | cons s before ih =>
      rw [List.cons_append, runOn, runOn, ih]
      rfl

/-- A session has one outcome for each search. -/
theorem length_runOn (a : Answers) (steps : List (Engine × SessionStep)) :
    (runOn a steps).length = steps.length := by
  induction steps generalizing a with
  | nil => rfl
  | cons s steps ih => rw [runOn, List.length_cons, List.length_cons, ih]

/-- **Each search of a session asks of the store, and comes to, what it would alone.**  A session on
one table is a session (the first part); what holds of a search in a session (the second) holds of
one search in any store, whose answers may depend on what it is asked (the third). -/
theorem session_lawful :
    (∀ (e : Engine) (a : Answers) (steps : List SessionStep),
      e.run a steps = runOn a (steps.map fun s => (e, s))) ∧
    (∀ (a : Answers) (before : List (Engine × SessionStep)) (e : Engine) (s : SessionStep)
        (rest : List (Engine × SessionStep)),
      ∃ outcome,
        let now := (a.afterSteps (before.map Prod.snd)).after s.change
        runOn a (before ++ (e, s) :: rest) = runOn a before ++ outcome :: runOn now rest ∧
          (runOn a before).length = before.length ∧
          Answered now.store (s.planned e) outcome ∧
          e.run now [{ s with change := {} }] = [outcome]) ∧
    ∀ (e : Engine) (store : Store) (a : AllowList) (o : QueryOptions),
      Answered store (plan e.clock e.limits e.table a o) (e.search store a o) := by
  refine ⟨Engine.run_eq_runOn, fun a before e s rest => ?_, fun e store a o =>
    Engine.search_eq_iff.mp rfl⟩
  refine ⟨(e.step (a.afterSteps (before.map Prod.snd)) s).2, ?_, length_runOn a before,
    e.step_answered _ s, e.run_alone _ s⟩
  rw [runOn_append, runOn]

end ResourceQuery
