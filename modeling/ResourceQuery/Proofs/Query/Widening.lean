import ResourceQuery.Proofs.Query.Plan

/-!
# Query — wider allow-lists

What happens to a request when its allow-list gets more names.

* `Visible.widen`: visible fields stay visible, with their columns, so that conditions, orders and
  searches stay what they are, but for the columns that a search has besides.
* `Planned.widen`: a request that is planned is planned under the wider list, to a plan that only
  looks into and returns more columns (`Plan.Widened`).
* `whereClause_prefix`: the text of conditions that others follow stays at the front.
* `plan_widened`: so no request that a list refuses is planned under a part of it.
-/

namespace ResourceQuery

variable {clock : Clock} {l : Limits} {t : Table} {a b : AllowList} {o : QueryOptions}

/-! ### The parts of a plan -/

theorem AllowList.contains_of_subset (h : a.names ⊆ b.names) {name : String}
    (ha : a.contains name = true) : b.contains name = true :=
  List.contains_iff_mem.mpr (h (List.contains_iff_mem.mp ha))

/-- Visible fields stay visible. -/
theorem Visible.widen (h : a.names ⊆ b.names) {field : String} {c : Column}
    (hv : Visible t a field c) : Visible t b field c :=
  ⟨AllowList.contains_of_subset h hv.1, hv.2⟩

theorem visibleColumns_subset (h : a.names ⊆ b.names) :
    visibleColumns t a ⊆ visibleColumns t b := by
  intro c hc
  exact mem_visibleColumns.mpr ((mem_visibleColumns.mp hc).widen h)

theorem visibleColumns_ne_nil (h : a.names ⊆ b.names) (hne : visibleColumns t a ≠ []) :
    visibleColumns t b ≠ [] := by
  obtain ⟨c, hc⟩ := List.exists_mem_of_ne_nil _ hne
  exact List.ne_nil_of_mem (visibleColumns_subset h hc)

/-- A condition that compiles stays the same. -/
theorem Condition.compile_widen (h : a.names ⊆ b.names) {c : Condition} {r : Option Predicate}
    (hc : c.compile clock t a = .ok r) : c.compile clock t b = .ok r := by
  obtain ⟨col, hv, hr⟩ := compile_eq_ok_iff.mp hc
  exact compile_eq_ok_iff.mpr ⟨col, hv.widen h, hr⟩

namespace Plan

theorem FilterPart.widen (h : a.names ⊆ b.names) {filter : Option Json} {ps : List Predicate}
    (hp : FilterPart clock l t a filter ps) : FilterPart clock l t b filter ps := by
  obtain _ | ⟨few, wellFormed, compiled⟩ := hp
  · exact .absent
  · refine .present few wellFormed (compiled.imp ?_)
    rintro w r ⟨c, hread, hc, hskips⟩
    exact ⟨c, hread, Condition.compile_widen h hc, hskips⟩

theorem OrderPart.widen (h : a.names ⊆ b.names) {sort : Option SortKey}
    {order : Option (Column × SortDirection)} (hp : OrderPart t a sort order) :
    OrderPart t b sort order := by
  obtain _ | hv := hp
  · exact .absent
  · exact .present (hv.widen h)

/-- A search that looks into more columns. -/
inductive WiderSearch : List Predicate → List Predicate → Prop where
  | absent : WiderSearch [] []
  | present {ps qs : List Predicate} (h : ps ⊆ qs) : WiderSearch [.any ps] [.any qs]

theorem SearchPart.widen (h : a.names ⊆ b.names) {search : Option String} {found : List Predicate}
    (hp : SearchPart t a search found) :
    ∃ found', SearchPart t b search found' ∧ WiderSearch found found' := by
  obtain _ | hne := hp
  · exact ⟨[], .absent, .absent⟩
  · exact ⟨_, .present (visibleColumns_ne_nil h hne),
      .present (List.map_subset _ (visibleColumns_subset h))⟩

end Plan

/-! ### The text of conditions that others follow -/

namespace Predicate

theorem piecesList_prefix (sep : String) (qs : List Predicate) : ∀ (n : Nat) (ps : List Predicate),
    piecesList sep n ps <+: piecesList sep n (ps ++ qs)
  | _, [] => List.nil_prefix
  | n, [p] => by
      cases qs with
      | nil => exact List.prefix_rfl
      | cons q qs => exact List.prefix_append (p.pieces n) _
  | n, p :: p' :: ps => by
      have hrest := piecesList_prefix sep qs (n + p.params.length) (p' :: ps)
      exact (List.prefix_append_right_inj _).mpr (List.cons_prefix_cons.mpr ⟨rfl, hrest⟩)

theorem whereClause_prefix (n : Nat) (ps qs : List Predicate) :
    whereClause n ps <+: whereClause n (ps ++ qs) := by
  cases ps with
  | nil => exact List.nil_prefix
  | cons p ps => exact List.cons_prefix_cons.mpr ⟨rfl, piecesList_prefix " AND " qs n (p :: ps)⟩

end Predicate

namespace Plan

/-- The conditions of a plan are `kept` and then `rest`, and so are its clause and the values it
binds. -/
structure StartsWith (p : Plan) (kept rest : List Predicate) : Prop where
  conditions : p.conditions = kept ++ rest
  params : p.select.params = Predicate.paramsList kept ++ Predicate.paramsList rest
  clause : ∀ backend, ∃ ending,
    clauseText backend p.conditions = clauseText backend kept ++ ending

theorem startsWith_of_eq {p : Plan} {kept rest : List Predicate}
    (h : p.conditions = kept ++ rest) : p.StartsWith kept rest where
  conditions := h
  params := by rw [select, h, Predicate.paramsList_append]
  clause := fun backend => by
    obtain ⟨ending, hending⟩ := Predicate.whereClause_prefix 0 kept rest
    refine ⟨Piece.text backend ending, ?_⟩
    rw [h, clauseText, ← hending, Piece.text_append]
    rfl

/-! ### Plans under two allow-lists -/

/-- The plans of a request under two allow-lists differ in what the second one shows besides: the
columns returned and those searched.  The conditions on deleted rows and of the filter are the same,
with their text and their values. -/
structure Widened (clock : Clock) (l : Limits) (t : Table) (a b : AllowList) (o : QueryOptions)
    (p q : Plan) : Prop where
  conditions : ∃ live filters found found', LivePart t o.excludeDeleted live ∧
    FilterPart clock l t a o.filter filters ∧ FilterPart clock l t b o.filter filters ∧
    SearchPart t a o.search found ∧ SearchPart t b o.search found' ∧ WiderSearch found found' ∧
    p.StartsWith (live ++ filters) found ∧ q.StartsWith (live ++ filters) found'
  columns : p.columns ⊆ q.columns
  order : q.order = p.order
  page : q.page = p.page
  limit : q.limit = p.limit

end Plan

/-- **A request that is planned is planned under a wider allow-list.** -/
theorem Planned.widen (h : a.names ⊆ b.names) {p : Plan} (hp : Planned clock l t a o p) :
    ∃ q, Planned clock l t b o q ∧ Plan.Widened clock l t a b o p q := by
  obtain ⟨live, filters, found, hlive, hfilters, hfound, hconditions⟩ := hp.conditions
  obtain ⟨found', hfound', hwider⟩ := hfound.widen h
  refine ⟨{ p with conditions := live ++ filters ++ found', columns := visibleColumns t b }, ?_, ?_⟩
  · exact {
      table := hp.table
      conditions := ⟨live, filters, found', hlive, hfilters.widen h, hfound', rfl⟩
      columns := rfl
      visible := visibleColumns_ne_nil h hp.visible
      asked := fun fields hfields => by
        obtain ⟨field, hfield, ha⟩ := List.any_eq_true.mp (hp.asked fields hfields)
        exact List.any_eq_true.mpr ⟨field, hfield, AllowList.contains_of_subset h ha⟩
      order := hp.order.widen h
      page := hp.page
      limit := hp.limit }
  · exact {
      conditions := ⟨live, filters, found, found', hlive, hfilters, hfilters.widen h, hfound,
        hfound', hwider, Plan.startsWith_of_eq hconditions, Plan.startsWith_of_eq rfl⟩
      columns := by
        rw [hp.columns]
        exact visibleColumns_subset h
      order := rfl
      page := rfl
      limit := rfl }

/-- **A wider allow-list plans what a narrower one plans.**  The conditions on deleted rows and of
the filter stay, with their text and their values, and so do the order and the window; columns are
returned and searched that were so before, perhaps among others.  So a request that is refused stays
refused when names are taken from the allow-list. -/
theorem plan_widened (h : a.names ⊆ b.names) :
    (∀ p, plan clock l t a o = .ok p →
      ∃ q, plan clock l t b o = .ok q ∧ Plan.Widened clock l t a b o p q) ∧
    ∀ x, plan clock l t b o = .error x → ∃ y, plan clock l t a o = .error y := by
  have hwiden : ∀ p, plan clock l t a o = .ok p →
      ∃ q, plan clock l t b o = .ok q ∧ Plan.Widened clock l t a b o p q := by
    intro p hp
    obtain ⟨q, hq, hwidened⟩ := (plan_eq_ok_iff.mp hp).widen h
    exact ⟨q, plan_eq_ok_iff.mpr hq, hwidened⟩
  refine ⟨hwiden, fun x hx => ?_⟩
  cases hp : plan clock l t a o with
  | error y => exact ⟨y, rfl⟩
  | ok p =>
      obtain ⟨q, hq, -⟩ := hwiden p hp
      rw [hx] at hq
      cases hq

/-- All fields of people, in another order. -/
def peopleUnhidden : AllowList :=
  .ofList ["ssn", "age", "name"]

/-- The grown-ups by the name of Ann are searched and returned with their numbers, too. -/
theorem plan_widened_grownUps :
    peopleAllowed.names ⊆ peopleUnhidden.names ∧
      ∃ p q, plan ⟨0, .utc⟩ {} people peopleAllowed grownUps = .ok p ∧
        plan ⟨0, .utc⟩ {} people peopleUnhidden grownUps = .ok q ∧
        q.count.text .sqlite =
          "SELECT COUNT(*) FROM \"people\" WHERE \"deleted_at\" IS NULL AND \"age\" >= ? AND " ++
            "(\"ssn\" LIKE ? ESCAPE '\\' OR CAST(\"age\" AS TEXT) LIKE ? ESCAPE '\\' OR " ++
              "\"full_name\" LIKE ? ESCAPE '\\')" ∧
        Plan.Widened ⟨0, .utc⟩ {} people peopleAllowed peopleUnhidden grownUps p q := by
  have h : peopleAllowed.names ⊆ peopleUnhidden.names := by decide +kernel
  have hp : plan ⟨0, .utc⟩ {} people peopleAllowed grownUps = .ok _ := rfl
  have hq : plan ⟨0, .utc⟩ {} people peopleUnhidden grownUps = .ok _ := rfl
  obtain ⟨q, hq', hwidened⟩ := (plan_widened h).1 _ hp
  rw [hq] at hq'
  cases hq'
  exact ⟨h, _, _, hp, hq, by decide +kernel, hwidened⟩

end ResourceQuery
