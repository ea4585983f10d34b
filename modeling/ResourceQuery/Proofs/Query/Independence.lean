import ResourceQuery.Proofs.Query.Plan

/-!
# Query — what the values of a request decide

Two requests are alike (`QueryOptions.Alike`) where they differ in values only: in the term of the
search, and in the values of operations as far as these are read to values of one shape.

* `forms_eq_of_alike`: the conditions of their plans have the same forms.
* `plan_independent`: so the texts of their plans are the same, on every backend, and bind equally
  many values.  What a client sends as a value is bound, and never becomes text.

The two plans may be made at different times: a relative date is bound like any other value.
-/

namespace ResourceQuery

/-- The operations are of the same operator on the same field, with values that are read to values
of the same shape. -/
structure Filter.Written.Alike (w w' : Filter.Written) : Prop where
  field : w.field = w'.field
  name : w.name = w'.name
  shape : ∀ op v v', Operator.ofName? w.name = some op → Value.ofJson op w.value = .ok v →
    Value.ofJson op w'.value = .ok v' → v.shape = v'.shape

/-- The filters write alike operations, in the same order. -/
inductive Filter.Alike : Option Json → Option Json → Prop where
  | absent : Alike none none
  | present {fields fields' : List (String × Json)}
      (h : List.Forall₂ Filter.Written.Alike (Filter.written fields) (Filter.written fields')) :
      Alike (some (.obj fields)) (some (.obj fields'))

/-- The requests differ in values only. -/
structure QueryOptions.Alike (o o' : QueryOptions) : Prop where
  page : o.page = o'.page
  limit : o.limit = o'.limit
  sort : o.sort = o'.sort
  fields : o.fields = o'.fields
  excludeDeleted : o.excludeDeleted = o'.excludeDeleted
  search : o.search.isSome = o'.search.isSome
  filter : Filter.Alike o.filter o'.filter

variable {clock clock' : Clock} {l : Limits} {t : Table} {a : AllowList} {o o' : QueryOptions}
  {p p' : Plan}

/-! ### The forms of the parts -/

theorem Filter.Written.Alike.form_eq {w w' : Filter.Written} (halike : Alike w w')
    {r r' : Option Predicate} (h : w.Compiles clock l t a r) (h' : w'.Compiles clock' l t a r') :
    r.map Predicate.form = r'.map Predicate.form := by
  obtain ⟨c, hread, hc, -⟩ := h
  obtain ⟨c', hread', hc', -⟩ := h'
  obtain ⟨col, ⟨-, hcol⟩, hp⟩ := Condition.compile_eq_ok_iff.mp hc
  obtain ⟨col', ⟨-, hcol'⟩, hp'⟩ := Condition.compile_eq_ok_iff.mp hc'
  have hcolumn : col = col' := by
    rw [hread.field, halike.field, ← hread'.field, hcol'] at hcol
    exact (Option.some.inj hcol).symm
  have hoperator : c.operator = c'.operator := by
    have hname := hread.operator
    rw [halike.name, hread'.operator] at hname
    exact (Option.some.inj hname).symm
  have hshape : c.value.shape = c'.value.shape :=
    halike.shape _ _ _ hread.operator hread.value (hoperator ▸ hread'.value)
  rw [Condition.predicate_form hp, Condition.predicate_form hp', hcolumn, hoperator, hshape]

theorem forms_eq_of_written {ws ws' : List Filter.Written}
    (halike : List.Forall₂ Filter.Written.Alike ws ws') {rs rs' : List (Option Predicate)}
    (h : List.Forall₂ (Filter.Written.Compiles clock l t a) ws rs)
    (h' : List.Forall₂ (Filter.Written.Compiles clock' l t a) ws' rs') :
    (rs.filterMap id).map Predicate.form = (rs'.filterMap id).map Predicate.form := by
  induction halike generalizing rs rs' with
  | nil =>
      cases h
      cases h'
      rfl
  | cons hw _ ih =>
      obtain _ | ⟨hr, hrs⟩ := h
      obtain _ | ⟨hr', hrs'⟩ := h'
      have hform := hw.form_eq hr hr'
      have hforms := ih hrs hrs'
      -- both operations come to a predicate, or both are skipped
      rename_i r rs r' rs'
      cases r with
      | none =>
          cases r' with
          | none => exact hforms
          | some q' => cases hform
      | some q =>
          cases r' with
          | none => cases hform
          | some q' => exact congrArg₂ List.cons (Option.some.inj hform) hforms

theorem Plan.FilterPart.forms_eq {filter filter' : Option Json} {ps ps' : List Predicate}
    (halike : Filter.Alike filter filter') (h : FilterPart clock l t a filter ps)
    (h' : FilterPart clock' l t a filter' ps') :
    ps.map Predicate.form = ps'.map Predicate.form := by
  cases halike with
  | absent =>
      cases h
      cases h'
      rfl
  | present hwritten =>
      obtain _ | ⟨-, -, hrs⟩ := h
      obtain _ | ⟨-, -, hrs'⟩ := h'
      exact forms_eq_of_written hwritten hrs hrs'

theorem Plan.SearchPart.forms_eq {search search' : Option String} {ps ps' : List Predicate}
    (hsome : search.isSome = search'.isSome) (h : SearchPart t a search ps)
    (h' : SearchPart t a search' ps') : ps.map Predicate.form = ps'.map Predicate.form := by
  cases h with
  | absent =>
      cases h' with
      | absent => rfl
      | present => cases hsome
  | present =>
      cases h' with
      | absent => cases hsome
      | present =>
          rw [List.map_singleton, List.map_singleton, form_searchGroup, form_searchGroup]

/-- **The conditions of alike requests have the same forms.** -/
theorem forms_eq_of_alike (ho : o.Alike o') (hp : Planned clock l t a o p)
    (hp' : Planned clock' l t a o' p') :
    Predicate.forms p.conditions = Predicate.forms p'.conditions := by
  obtain ⟨live, filters, found, hlive, hfilters, hfound, hconditions⟩ := hp.conditions
  obtain ⟨live', filters', found', hlive', hfilters', hfound', hconditions'⟩ := hp'.conditions
  have hlives : live = live' := by
    rw [← liveness_eq_iff.mpr hlive, ← liveness_eq_iff.mpr hlive', liveness, liveness,
      ho.excludeDeleted]
  have hforms := Plan.FilterPart.forms_eq ho.filter hfilters hfilters'
  have hgroups := Plan.SearchPart.forms_eq ho.search hfound hfound'
  rw [hconditions, hconditions']
  simp only [Predicate.forms_eq_map, List.map_append, hlives, hforms, hgroups]

/-! ### The texts -/

theorem Plan.source_eq_of_forms (htable : p.table = p'.table)
    (hforms : Predicate.forms p.conditions = Predicate.forms p'.conditions) :
    p.source = p'.source := by
  simp only [source, Predicate.whereClause_eq, htable, hforms]

/-- **The texts of a plan do not depend on the values a client sends.** -/
theorem plan_independent (ho : o.Alike o') (h : plan clock l t a o = .ok p)
    (h' : plan clock' l t a o' = .ok p') :
    (∀ b, p.select.text b = p'.select.text b ∧ p.count.text b = p'.count.text b) ∧
    p.select.params.length = p'.select.params.length ∧
    p.count.params.length = p'.count.params.length ∧
    p.columns = p'.columns ∧ p.order = p'.order ∧ p.page = p'.page ∧ p.limit = p'.limit := by
  have hp := plan_eq_ok_iff.mp h
  have hp' := plan_eq_ok_iff.mp h'
  have hforms := forms_eq_of_alike ho hp hp'
  have hcolumns : p.columns = p'.columns := hp.columns.trans hp'.columns.symm
  have hpage : p.page = p'.page := by rw [hp.page, hp'.page, ho.page]
  have hlimit : p.limit = p'.limit := by
    have hclamp := hp.limit
    rw [ho.limit, hp'.limit] at hclamp
    exact (Option.some.inj hclamp).symm
  have horder : p.order = p'.order := by
    have hsort : sortColumn t a o = sortColumn t a o' := by rw [sortColumn, sortColumn, ho.sort]
    rw [sortColumn_eq_ok_iff.mpr hp.order, sortColumn_eq_ok_iff.mpr hp'.order] at hsort
    exact Except.ok.inj hsort
  have hsource := Plan.source_eq_of_forms (hp.table.trans hp'.table.symm) hforms
  have hparams : (Predicate.paramsList p.conditions).length =
      (Predicate.paramsList p'.conditions).length := by
    rw [Predicate.length_paramsList, Predicate.length_paramsList, hforms]
  refine ⟨fun b => ⟨?_, ?_⟩, hparams, hparams, hcolumns, horder, hpage, hlimit⟩
  · simp only [Statement.text, Plan.select_pieces, Plan.heading, Plan.ending, Plan.orderClause,
      Plan.offset, hsource, hcolumns, horder, hpage, hlimit]
  · simp only [Statement.text, Plan.count, hsource]

/-- People of a name, found by a term. -/
def named (term name : String) : QueryOptions where
  search := some term
  filter := some (.obj [("name", .obj [("eq", .str name)])])

theorem plan_independent_named :
    ∃ p p', plan ⟨0, .utc⟩ {} people peopleAllowed (named "ann" "Ann") = .ok p ∧
      plan ⟨0, .utc⟩ {} people peopleAllowed (named "%" "\" OR 1=1") = .ok p' ∧
      (named "ann" "Ann").Alike (named "%" "\" OR 1=1") ∧
      p.select.params ≠ p'.select.params ∧
      ∀ b, p.select.text b = p'.select.text b ∧ p.count.text b = p'.count.text b := by
  have h : plan ⟨0, .utc⟩ {} people peopleAllowed (named "ann" "Ann") = .ok _ := rfl
  have h' : plan ⟨0, .utc⟩ {} people peopleAllowed (named "%" "\" OR 1=1") = .ok _ := rfl
  have hwritten :
      Filter.Written.Alike ⟨"name", "eq", .str "Ann"⟩ ⟨"name", "eq", .str "\" OR 1=1"⟩ := by
    refine ⟨rfl, rfl, ?_⟩
    intro op v v' hop hv hv'
    cases hop
    cases hv
    cases hv'
    rfl
  have halike : (named "ann" "Ann").Alike (named "%" "\" OR 1=1") :=
    ⟨rfl, rfl, rfl, rfl, rfl, rfl, .present (.cons hwritten .nil)⟩
  exact ⟨_, _, h, h', halike, by decide, (plan_independent halike h h').1⟩

end ResourceQuery
