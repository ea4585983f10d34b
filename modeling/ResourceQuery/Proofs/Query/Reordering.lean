import ResourceQuery.Proofs.Query.Plan

/-!
# Query — a filter in another order

A filter means the same however its fields are ordered, and the operators of each field
(`Filter.Reordered`).

* `validate_reordered`: it is accepted in both orders, with the same conditions, or refused in both,
  with the same violations, in some order.
* `filterConditions_reordered`: where it is accepted, its conditions compile in both orders, to the
  same predicates in some order, or each order is refused for one of them.
* `plan_reordered`: so a request is planned in both orders, to plans that differ in the order of
  these predicates alone, or refused in both.
-/

namespace ResourceQuery

variable {clock : Clock} {l : Limits} {t : Table} {a : AllowList} {o : QueryOptions}
  {fields fields' : List (String × Json)}

/-! ### Reading -/

namespace Filter

/-- The same field, its operators perhaps in another order. -/
inductive SameField : String × Json → String × Json → Prop where
  | same (m : String × Json) : SameField m m
  | reordered (field : String) {ops ops' : List (String × Json)} (h : ops.Perm ops') :
      SameField (field, .obj ops) (field, .obj ops')

/-- The same filter, its fields and the operators of each perhaps in another order. -/
def Reordered (fields fields' : List (String × Json)) : Prop :=
  ∃ between, List.Forall₂ SameField fields between ∧ between.Perm fields'

theorem SameField.operationCount {m m' : String × Json} (h : SameField m m') :
    operationCount m.2 = operationCount m'.2 := by
  cases h with
  | same => rfl
  | reordered _ h => exact h.length_eq

theorem SameField.fieldFindings {m m' : String × Json} (h : SameField m m') :
    (fieldFindings l m).Perm (fieldFindings l m') := by
  cases h with
  | same => exact .refl _
  | reordered field h =>
      simp only [Filter.fieldFindings]
      split
      · exact .refl _
      · exact h.map _

theorem findings_of_sameFields (h : List.Forall₂ SameField fields fields') :
    (findings l fields).Perm (findings l fields') := by
  induction h with
  | nil => exact .refl _
  | cons hm _ ih =>
      simp only [findings, List.flatMap_cons]
      exact hm.fieldFindings.append ih

theorem Reordered.operations (h : Reordered fields fields') :
    operations fields = operations fields' := by
  obtain ⟨between, hsame, hperm⟩ := h
  rw [operations_congr (hsame.imp fun _ _ hm => hm.operationCount), Filter.operations,
    Filter.operations]
  exact hperm.foldr_eq' (fun m _ n _ k => Nat.add_left_comm (operationCount n.2) _ k) 0

theorem Reordered.findings (h : Reordered fields fields') :
    (findings l fields).Perm (findings l fields') := by
  obtain ⟨between, hsame, hperm⟩ := h
  exact (findings_of_sameFields hsame).trans (hperm.flatMap_right _)

/-- **A filter is accepted in any order, with the same conditions, or refused in any, with the same
violations.** -/
theorem validate_reordered (h : Reordered fields fields') :
    Together List.Perm List.Perm (validate l (.obj fields)) (validate l (.obj fields')) := by
  have hviolations : (violations (findings l fields)).Perm (violations (findings l fields')) :=
    h.findings.filterMap _
  have hempty := hviolations.isEmpty_eq
  rw [validate, validate, ← h.operations]
  split
  · exact .error (.refl _)
  · dsimp only
    rw [← hempty]
    split
    · exact .ok (h.findings.filterMap _)
    · exact .error hviolations

end Filter

/-! ### Planning -/

/-- The error is about a field that cannot be used or a value that does not suit. -/
def QueryError.OfCondition (e : QueryError) : Prop :=
  e.category = .access ∨ e.category = .value

theorem Condition.Refused.ofCondition {c : Condition} {e : QueryError} (h : c.Refused e) :
    e.OfCondition := by
  cases h with
  | notAllowed | notFound => exact .inl rfl
  | unsuited => exact .inr rfl

/-- Errors of one request whose filter is written in two orders. -/
inductive QueryError.Alike : QueryError → QueryError → Prop where
  /-- The filter is refused for the same violations. -/
  | malformed {vs vs' : List Violation} (h : vs.Perm vs') :
      Alike (.invalidFilter vs) (.invalidFilter vs')
  /-- Each order is refused for one of its conditions, perhaps not the same. -/
  | condition {e e' : QueryError} (h : e.OfCondition) (h' : e'.OfCondition) : Alike e e'
  /-- What is wrong is not the filter. -/
  | same (e : QueryError) : Alike e e

/-- Refusals of one request whose filter is written in two orders. -/
inductive Refusal.Alike : Refusal → Refusal → Prop where
  | bounds (low high : UInt32) : Alike (.invertedBounds low high) (.invertedBounds low high)
  | query {e e' : QueryError} (h : e.Alike e') : Alike (.query e) (.query e')

/-- **A filter compiles in any order, to the same predicates, or is refused in any.** -/
theorem filterConditions_reordered (h : Filter.Reordered fields fields') :
    Together QueryError.Alike List.Perm
      (filterConditions clock l t a { o with filter := some (.obj fields) })
      (filterConditions clock l t a { o with filter := some (.obj fields') }) := by
  have hread := Filter.validate_reordered (l := l) h
  simp only [filterConditions]
  generalize Filter.validate l (.obj fields) = x at hread
  generalize Filter.validate l (.obj fields') = y at hread
  cases hread with
  | error hviolations => exact .error (.malformed hviolations)
  | ok hconditions =>
      have hrefused : ∀ c : Condition, FailsOnly QueryError.OfCondition (c.compile clock t a) :=
        fun c e he => (c.compile_refused clock t a e he).ofCondition
      have hcompiled := Together.mapM_perm hrefused hconditions
      -- the conditions that come to nothing are left out of both orders
      refine (hcompiled.map fun rs rs' hrs => hrs.filterMap id).mono ?_
      rintro e e' ⟨he, he'⟩
      exact .condition he he'

/-- Plans of one request whose filter is written in two orders: the predicates of the filter stand
in two orders, and all else is the same. -/
inductive Plan.Alike (clock : Clock) (l : Limits) (t : Table) (a : AllowList) (o : QueryOptions)
    (fields fields' : List (String × Json)) : Plan → Plan → Prop where
  | intro {p p' : Plan} {live filters filters' found : List Predicate}
      (alive : LivePart t o.excludeDeleted live)
      (filtered : FilterPart clock l t a (some (.obj fields)) filters)
      (filtered' : FilterPart clock l t a (some (.obj fields')) filters')
      (searched : SearchPart t a o.search found)
      (reordered : filters.Perm filters')
      (conditions : p.conditions = live ++ filters ++ found)
      (rest : p' = { p with conditions := live ++ filters' ++ found }) :
      Alike clock l t a o fields fields' p p'

/-- **A request is planned in whatever order its filter is written, to plans that differ in the
order of the filter's predicates alone, or refused in any order.**  A filter that is refused for its
form is refused for the same violations; one that is refused for a field or a value is so in any
order, perhaps for another field or value. -/
theorem plan_reordered (h : Filter.Reordered fields fields') :
    Together Refusal.Alike (Plan.Alike clock l t a o fields fields')
      (plan clock l t a { o with filter := some (.obj fields) })
      (plan clock l t a { o with filter := some (.obj fields') }) := by
  rw [plan, plan]
  cases hlimit : l.clamp? o.limit with
  | none => exact .error (.bounds _ _)
  | some limit =>
      refine Together.mapError ?_ fun e e' he => Refusal.Alike.query he
      have hfilters : Together QueryError.Alike List.Perm
          (filterConditions clock l t a { o with filter := some (.obj fields) })
          (filterConditions clock l t a { o with filter := some (.obj fields') }) :=
        filterConditions_reordered h
      refine hfilters.attach.bind ?_
      intro filters filters' hattached
      obtain ⟨hfilters, hfilters', hperm⟩ := hattached
      -- neither the columns nor the order look at the filter
      have hcolumns : Together QueryError.Alike Eq (project t a o) (project t a o) :=
        .refl .same
      refine hcolumns.attach.bind ?_
      intro columns columns' hattached
      obtain ⟨hcolumns, -, heq⟩ := hattached
      have horder : Together QueryError.Alike Eq (sortColumn t a o) (sortColumn t a o) :=
        .refl .same
      refine horder.bind ?_
      intro order order' heq'
      subst heq heq'
      have hvisible := (project_eq_ok_iff.mp hcolumns).2.1
      exact .ok (.intro (liveness_eq_iff.mp rfl) (filterConditions_eq_ok_iff.mp hfilters)
        (filterConditions_eq_ok_iff.mp hfilters') ((searchConditions_eq_iff hvisible).mp rfl) hperm
        rfl rfl)

/-- Grown-ups under 65 by the name of Ann. -/
def agedThenNamed : List (String × Json) :=
  [("age", .obj [("gte", .int 18), ("lt", .int 65)]), ("name", .obj [("matches", .str "ann")])]

/-- The same, written from the end. -/
def namedThenAged : List (String × Json) :=
  [("name", .obj [("matches", .str "ann")]), ("age", .obj [("lt", .int 65), ("gte", .int 18)])]

theorem plan_reordered_people :
    Filter.Reordered agedThenNamed namedThenAged ∧
      ∃ p p', plan ⟨0, .utc⟩ {} people peopleAllowed { filter := some (.obj agedThenNamed) } = .ok p ∧
        plan ⟨0, .utc⟩ {} people peopleAllowed { filter := some (.obj namedThenAged) } = .ok p' ∧
        p.count.text .sqlite =
          "SELECT COUNT(*) FROM \"people\" WHERE \"deleted_at\" IS NULL AND \"age\" >= ? AND " ++
            "\"age\" < ? AND \"full_name\" LIKE ? ESCAPE '\\'" ∧
        p'.count.text .sqlite =
          "SELECT COUNT(*) FROM \"people\" WHERE \"deleted_at\" IS NULL AND " ++
            "\"full_name\" LIKE ? ESCAPE '\\' AND \"age\" < ? AND \"age\" >= ?" ∧
        Plan.Alike ⟨0, .utc⟩ {} people peopleAllowed {} agedThenNamed namedThenAged p p' := by
  have hreordered : Filter.Reordered agedThenNamed namedThenAged :=
    ⟨_, .cons (.reordered "age" (.swap _ _ [])) (.cons (.same _) .nil), .swap _ _ []⟩
  have hp : plan ⟨0, .utc⟩ {} people peopleAllowed { filter := some (.obj agedThenNamed) } =
      .ok _ := rfl
  have hp' : plan ⟨0, .utc⟩ {} people peopleAllowed { filter := some (.obj namedThenAged) } =
      .ok _ := rfl
  have halike : Together Refusal.Alike
      (Plan.Alike ⟨0, .utc⟩ {} people peopleAllowed {} agedThenNamed namedThenAged) _ _ :=
    plan_reordered hreordered
  rw [hp, hp'] at halike
  obtain ⟨halike⟩ := halike
  exact ⟨hreordered, _, _, hp, hp', by decide +kernel, by decide +kernel, halike⟩

end ResourceQuery
