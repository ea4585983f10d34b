import ResourceQuery.Api.Response
import ResourceQuery.Proofs.Query.Plan
import ResourceQuery.Proofs.Query.Session

/-!
# Query — whose fault an error is

* `normalize_ofClient`, `plan_ofClient`: a request that is not normalized or not planned is refused
  for an error of the client's, at every stage.
* `serve_attributed`: so an error of a request is the client's exactly if the store was asked
  nothing, and else it is what the store failed with.
* `error_boundary`: and a client is told of a store's failure nothing but that there was one.
-/

namespace ResourceQuery

/-- The error is the client's. -/
def QueryError.OfClient (e : QueryError) : Prop :=
  e.category.isClient = true

/-- The refusal is an error of the client's. -/
inductive Refusal.OfClient : Refusal → Prop where
  | query {e : QueryError} (h : e.OfClient) : OfClient (.query e)

/-! ### Normalizing -/

namespace ListRequest

variable {l : Limits}

theorem sortKey_ofClient (l : Limits) (r : ListRequest) :
    FailsOnly QueryError.OfClient (r.sortKey l) := by
  rw [sortKey]
  split
  · exact FailsOnly.ok _
  · split
    · exact FailsOnly.ok _
    · exact FailsOnly.error_iff.mpr rfl

theorem searchTerm_ofClient (l : Limits) (r : ListRequest) :
    FailsOnly QueryError.OfClient (r.searchTerm l) := by
  rw [searchTerm]
  split
  · exact FailsOnly.ok _
  · split
    · exact FailsOnly.error_iff.mpr rfl
    · exact FailsOnly.ok _

theorem filterDocument_ofClient (l : Limits) (r : ListRequest) :
    FailsOnly QueryError.OfClient (r.filterDocument l) := by
  rw [filterDocument]
  split
  · exact FailsOnly.ok _
  · exact FailsOnly.ok _
  · split
    · exact FailsOnly.ok _
    · have hany : ∀ x : Except (List Violation) (Option Json), FailsOnly (fun _ => True) x :=
        fun _ _ _ => trivial
      exact (hany _).mapError fun _ _ => rfl
  · exact FailsOnly.ok _

theorem boolean_ofClient (j : Json) : FailsOnly QueryError.OfClient (boolean j) := by
  have hunclear : ∀ shown, FailsOnly QueryError.OfClient
      (.error (.invalidOption (.notBoolean shown)) : Except QueryError Bool) :=
    fun _ => FailsOnly.error_iff.mpr rfl
  cases j with
  | null => exact FailsOnly.ok _
  | bool b => exact FailsOnly.ok b
  | str s =>
      simp only [boolean]
      split
      · exact FailsOnly.ok _
      · split
        · exact FailsOnly.ok _
        · split
          · exact FailsOnly.ok _
          · exact hunclear _
      · exact hunclear _
  | int _ | double _ | arr _ | obj _ => exact hunclear _

theorem excludes_ofClient (r : ListRequest) : FailsOnly QueryError.OfClient r.excludes := by
  rw [excludes]
  split
  · exact FailsOnly.ok _
  · exact (boolean_ofClient _).map not

theorem pageSize_ofClient (h : l.ordered = true) (r : ListRequest) :
    FailsOnly Refusal.OfClient (r.pageSize l) := by
  rw [pageSize]
  split
  · exact FailsOnly.ok _
  · rename_i n _
    obtain ⟨m, hm, -⟩ := Limits.exists_clamp? h n
    rw [hm]
    exact FailsOnly.ok m

/-- **A request that is not normalized is refused for an error of the client's.** -/
theorem normalize_ofClient (h : l.ordered = true) (r : ListRequest) :
    FailsOnly Refusal.OfClient (r.normalize l) := by
  have hquery : ∀ {α : Type} {x : Except QueryError α}, FailsOnly QueryError.OfClient x →
      FailsOnly Refusal.OfClient (x.mapError .query) :=
    fun hx => hx.mapError fun _ => .query
  refine (pageSize_ofClient h r).bind fun limit _ => ?_
  refine (hquery (r.sortKey_ofClient l)).bind fun sort _ => ?_
  refine (hquery (r.searchTerm_ofClient l)).bind fun search _ => ?_
  refine (hquery (r.filterDocument_ofClient l)).bind fun filter _ => ?_
  refine (hquery r.excludes_ofClient).bind fun excludeDeleted _ => ?_
  exact FailsOnly.ok _

end ListRequest

/-! ### Planning -/

section

variable {l : Limits} (clock : Clock) (t : Table) (a : AllowList) (o : QueryOptions)

theorem Condition.Refused.ofClient {c : Condition} {e : QueryError} (h : c.Refused e) :
    e.OfClient := by
  cases h <;> rfl

/-- A condition is refused under the name of its field. -/
theorem Condition.Refused.field? {c : Condition} {e : QueryError} (h : c.Refused e) :
    e.field? = some c.field := by
  cases h <;> rfl

theorem filterConditions_ofClient (l : Limits) :
    FailsOnly QueryError.OfClient (filterConditions clock l t a o) := by
  rw [filterConditions]
  split
  · exact FailsOnly.ok _
  · split
    · exact FailsOnly.error_iff.mpr rfl
    · refine FailsOnly.map (FailsOnly.mapM fun c _ => ?_) _
      exact fun e he => (c.compile_refused clock t a e he).ofClient

theorem project_ofClient : FailsOnly QueryError.OfClient (project t a o) := by
  by_cases hasked : ∀ fields, o.fields = some fields → fields.any a.contains = true
  · rw [project_of_asked hasked]
    split
    · exact FailsOnly.error_iff.mpr rfl
    · exact FailsOnly.ok _
  · push Not at hasked
    obtain ⟨fields, ho, hany⟩ := hasked
    rw [project, ho]
    simp only [Bool.eq_false_iff.mpr hany, Bool.not_false, if_true]
    exact FailsOnly.error_iff.mpr rfl

theorem sortColumn_ofClient : FailsOnly QueryError.OfClient (sortColumn t a o) := by
  rw [sortColumn]
  split
  · exact FailsOnly.ok _
  · split
    · split
      · exact FailsOnly.ok _
      · exact FailsOnly.error_iff.mpr rfl
    · exact FailsOnly.error_iff.mpr rfl

/-- **A request that is not planned is refused for an error of the client's.** -/
theorem plan_ofClient (h : l.ordered = true) :
    FailsOnly Refusal.OfClient (plan clock l t a o) := by
  obtain ⟨limit, hlimit, -⟩ := Limits.exists_clamp? h o.limit
  rw [plan, hlimit]
  refine FailsOnly.mapError ?_ fun _ => .query
  refine (filterConditions_ofClient clock t a o l).bind fun filters _ => ?_
  refine (project_ofClient t a o).bind fun columns _ => ?_
  refine (sortColumn_ofClient t a o).bind fun order _ => ?_
  exact FailsOnly.ok _

end

/-! ### Serving -/

/-- The store fails the call so. -/
def Call.Fails (store : Store) (d : DataError) : Call → Prop
  | .rows s columns => store.rows s columns = .error d
  | .count s => store.count s = .error d

/-- The error of a request that made these calls is the client's exactly if it made none, and the
store's exactly if it is what the store failed one of them with. -/
structure QueryError.Attributed (store : Store) (calls : List Call) (e : QueryError) : Prop where
  client : e.category.isClient = true ↔ calls = []
  store : e.category = .store ↔ ∃ d, e = .store d ∧ ∃ c ∈ calls, c.Fails store d

theorem QueryError.OfClient.attributed {store : Store} {e : QueryError} (h : e.OfClient) :
    e.Attributed store [] := by
  refine ⟨⟨fun _ => rfl, fun _ => h⟩, fun hstore => ?_, ?_⟩
  · rw [OfClient, hstore] at h
    cases h
  · rintro ⟨-, -, c, hc, -⟩
    cases hc

theorem QueryError.attributed_of_fails {store : Store} {d : DataError} {calls : List Call} {c : Call}
    (hc : c ∈ calls) (hd : c.Fails store d) : (QueryError.store d).Attributed store calls := by
  refine ⟨⟨fun h => ?_, fun h => ?_⟩, fun _ => ⟨d, rfl, c, hc, hd⟩, fun _ => rfl⟩
  · cases h
  · rw [h] at hc
    cases hc

/-- **An error of a request is the client's exactly if the store was asked nothing, and else what
the store failed with.** -/
theorem serve_attributed {e : Engine} (h : e.limits.ordered = true) (store : Store) (a : AllowList)
    (r : ListRequest) {x : Refusal} (hx : (e.serve store a r).result = .error x) :
    ∃ q, x = .query q ∧ q.Attributed store (e.serve store a r).calls := by
  have hrefused : ∀ {x : Refusal}, x.OfClient → ∃ q, x = .query q ∧ q.Attributed store [] := by
    rintro _ ⟨hq⟩
    exact ⟨_, rfl, hq.attributed⟩
  rw [Engine.serve] at hx ⊢
  cases hnormal : r.normalize e.limits with
  | error x' =>
      rw [hnormal] at hx
      cases hx
      exact hrefused (r.normalize_ofClient h x hnormal)
  | ok o =>
      rw [hnormal] at hx
      have hanswered := e.search_answered store a o
      dsimp only at hx ⊢
      generalize hplan : plan e.clock e.limits e.table a o = planned at hanswered
      generalize e.search store a o = outcome at hx hanswered
      cases hanswered with
      | refused =>
          cases hx
          exact hrefused (plan_ofClient e.clock e.table a o h x hplan)
      | noRows rows =>
          cases hx
          exact ⟨_, rfl, QueryError.attributed_of_fails List.mem_cons_self rows⟩
      | noCount rows count =>
          cases hx
          exact ⟨_, rfl, QueryError.attributed_of_fails
            (List.mem_cons_of_mem _ List.mem_cons_self) count⟩
      | found rows count => cases hx

/-! ### What a client is told -/

/-- An error of the client's is told in its own words, with its field. -/
theorem ApiError.ofQueryError_of_ofClient {e : QueryError} (h : e.OfClient) :
    ∃ code, ofQueryError e = .badRequest code e.message e.field? := by
  cases e with
  | store d => cases h
  | invalidFilter _ | invalidOption _ | fieldNotAllowed _ | fieldNotFound _ => exact ⟨_, rfl⟩
  | invalidValue _ _ _ | noValidFields | invalidSortField _ => exact ⟨_, rfl⟩

theorem ApiError.status_eq_badRequest_iff {e : QueryError} :
    (ofQueryError e).status = 400 ↔ e.category.isClient = true := by
  constructor
  · intro h
    cases e with
    | store d => cases h
    | _ => rfl
  · intro h
    obtain ⟨code, hcode⟩ := ofQueryError_of_ofClient h
    rw [hcode]
    rfl

/-- The body has the field of the error, if it has one. -/
theorem ApiError.get?_field_body (e : QueryError) :
    (ofQueryError e).body.get? "field" = e.field?.map .str := by
  have hclient : ∀ code m (field : Option String),
      (badRequest code m field).body.get? "field" = field.map .str := by
    intro code m field
    cases field <;> rfl
  by_cases h : e.OfClient
  · obtain ⟨code, hcode⟩ := ofQueryError_of_ofClient h
    rw [hcode, hclient]
  · cases e with
    | store d => rfl
    | _ => exact absurd rfl h

/-- **What is wrong with a filter is about a field exactly if it is one violation that names it.** -/
theorem QueryError.field?_invalidFilter_iff {vs : List Violation} {field : String} :
    (invalidFilter vs).field? = some field ↔ ∃ v, vs = [v] ∧ v.field ≠ "" ∧ v.field = field := by
  rcases vs with _ | ⟨v, _ | ⟨w, vs⟩⟩
  · simp [field?]
  · simp [field?, String.isEmpty_iff]
  · simp [field?]

/-- **Errors stay on their side of the store.**  Whatever comes in and however the store answers,
an error is the client's exactly if the store was asked nothing, and the store's exactly if it wraps
what the store failed with.  A client's error is a bad request with its field; the store's is told in
the same words whatever it is.  A condition is refused under the name of its field. -/
theorem error_boundary {l : Limits} (h : l.ordered = true) (clock : Clock) (t : Table)
    (a : AllowList) :
    (∀ (store : Store) (r : ListRequest) (x : Refusal),
      (Engine.serve ⟨clock, l, t⟩ store a r).result = .error x →
      ∃ e, x = .query e ∧
        e.Attributed store (Engine.serve ⟨clock, l, t⟩ store a r).calls) ∧
    (∀ r : ListRequest, FailsOnly Refusal.OfClient (r.normalize l)) ∧
    (∀ o, FailsOnly Refusal.OfClient (plan clock l t a o)) ∧
    (∀ e : QueryError,
      ((ApiError.ofQueryError e).status = 400 ↔ e.category.isClient = true) ∧
      (e.category.isClient = true →
        ∃ code, ApiError.ofQueryError e = .badRequest code e.message e.field?) ∧
      (ApiError.ofQueryError e).body.get? "field" = e.field?.map .str) ∧
    (∀ d d' : DataError,
      (ApiError.ofQueryError (.store d)).status = 500 ∧
      ApiError.ofQueryError (.store d) = ApiError.ofQueryError (.store d')) ∧
    (∀ c : Condition, FailsOnly (fun e => e.field? = some c.field) (c.compile clock t a)) ∧
    (∀ vs field, (QueryError.invalidFilter vs).field? = some field ↔
      ∃ v, vs = [v] ∧ v.field ≠ "" ∧ v.field = field) := by
  refine ⟨fun store r x hx => serve_attributed h store a r hx, fun r => r.normalize_ofClient h,
    fun o => plan_ofClient clock t a o h, fun e => ?_, fun d d' => ⟨rfl, rfl⟩, fun c e he => ?_,
    fun vs field => QueryError.field?_invalidFilter_iff⟩
  · exact ⟨ApiError.status_eq_badRequest_iff, ApiError.ofQueryError_of_ofClient,
      ApiError.get?_field_body e⟩
  · exact (c.compile_refused clock t a e he).field?

/-- A store that has no connection left when the rows are to be counted. -/
def exhausted : Store :=
  Answers.store { countFault := some (.poolExhausted .sqlite) }

theorem error_boundary_exhausted :
    Limits.ordered {} = true ∧
      let outcome := Engine.serve ⟨⟨0, .utc⟩, {}, people⟩ exhausted peopleAllowed {}
      outcome.calls.length = 2 ∧
      outcome.result = .error (.query (.store (.poolExhausted .sqlite))) ∧
      (QueryError.store (.poolExhausted .sqlite)).Attributed exhausted outcome.calls := by
  have h : Limits.ordered {} = true := rfl
  obtain ⟨hserve, -⟩ := error_boundary h ⟨0, .utc⟩ people peopleAllowed
  have hresult : (Engine.serve ⟨⟨0, .utc⟩, {}, people⟩ exhausted peopleAllowed {}).result =
      .error (.query (.store (.poolExhausted .sqlite))) := rfl
  obtain ⟨e, he, hattributed⟩ := hserve exhausted {} _ hresult
  cases he
  exact ⟨h, rfl, hresult, hattributed⟩

end ResourceQuery
