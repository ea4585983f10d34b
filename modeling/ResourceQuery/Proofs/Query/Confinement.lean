import ResourceQuery.Proofs.Query.Statement

/-!
# Query — what a caller can reach

Every name between double quotes in a statement of a plan is the table's, that of a column behind a
visible field, or that of the column of deleted rows, and the last only where the clause starts by
asking whether it is null (`Confined`).

* `source_confined`: so it is in every statement that reads from the source of a plan, if the pieces
  before and after it name no other columns than visible ones (`Proper`).
* `plan_confined`: so it is in both statements of a plan.  A plan exists only if every field the
  filter or the order names is visible, and which orders a request may have is decided by `resolve`
  as it is for conditions.
-/

namespace ResourceQuery
open Sql (Token marks)

/-- The name of a column behind a visible field. -/
def VisibleName (t : Table) (a : AllowList) (name : String) : Prop :=
  ∃ field c, Visible t a field c ∧ c.name = name

/-- A name that a statement may write between what stands before and after it. -/
inductive Confined (t : Table) (a : AllowList) (exclude : Bool) (before : List Token)
    (name : String) (after : List Token) : Prop where
  | table (h : name = t.name)
  | column (h : VisibleName t a name)
  /-- The column of deleted rows, as the subject of the first condition. -/
  | mark (h : exclude = true) (hmark : t.deletedAt = some name)
      (hbefore : marks " WHERE " <:+ before) (hafter : marks " IS NULL" <+: after)

/-- The pieces name the table and visible columns only. -/
def Proper (t : Table) (a : AllowList) (ps : List Piece) : Prop :=
  ∀ name ∈ Piece.idents ps, name = t.name ∨ VisibleName t a name

variable {clock : Clock} {l : Limits} {t : Table} {a : AllowList} {o : QueryOptions} {p : Plan}

/-! ### Proper pieces -/

namespace Proper

theorem append {ps qs : List Piece} (hps : Proper t a ps) (hqs : Proper t a qs) :
    Proper t a (ps ++ qs) := by
  intro name hname
  rw [Piece.idents_append] at hname
  rcases List.mem_append.mp hname with h | h
  · exact hps name h
  · exact hqs name h

/-- Pieces that name nothing. -/
theorem of_idents_nil {ps : List Piece} (h : Piece.idents ps = []) : Proper t a ps := by
  intro name hname
  rw [h] at hname
  cases hname

theorem from_table : Proper t a [.words " FROM ", .name t.name] := by
  intro name hname
  exact .inl (List.mem_singleton.mp hname)

/-- What proper pieces name is confined, wherever it stands. -/
theorem confined {ps : List Piece} (hps : Proper t a ps) {exclude : Bool}
    {before after : List Token} {name : String} (h : name ∈ Piece.idents ps) :
    Confined t a exclude before name after := by
  rcases hps name h with h | h
  · exact .table h
  · exact .column h

end Proper

/-! ### The names in the parts of a plan -/

theorem Predicate.idents_whereClause (n : Nat) (ps : List Predicate) :
    Piece.idents (whereClause n ps) = ps.flatMap fun p => p.form.columns := by
  rw [whereClause_eq, Form.idents_whereClause, Form.columnsList_eq, forms_eq_map, List.flatMap_map]

theorem Plan.idents_further (ps : List Predicate) :
    Piece.idents (further ps) = ps.flatMap fun p => p.form.columns := by
  cases ps with
  | nil => rfl
  | cons p ps =>
      show Piece.idents (Predicate.piecesList " AND " 0 (p :: ps)) = _
      rw [Predicate.piecesList_eq, Form.idents_piecesList, Form.columnsList_eq,
        Predicate.forms_eq_map, List.flatMap_map]

theorem Plan.FilterPart.visible {filter : Option Json} {ps : List Predicate}
    (h : FilterPart clock l t a filter ps) :
    ∀ q ∈ ps, ∀ name ∈ q.form.columns, VisibleName t a name := by
  intro q hq name hname
  obtain _ | ⟨-, -, compiled⟩ := h
  · cases hq
  · obtain ⟨r, hr, rfl⟩ := List.mem_filterMap.mp hq
    obtain ⟨w, -, c, -, hc, -⟩ := exists_of_mem_right compiled hr
    obtain ⟨col, hcol, hp⟩ := Condition.compile_eq_ok_iff.mp hc
    rw [Operator.columns_form? (Condition.predicate_form hp).symm, List.mem_singleton] at hname
    exact ⟨_, col, hcol, hname.symm⟩

theorem Plan.SearchPart.visible {search : Option String} {ps : List Predicate}
    (h : SearchPart t a search ps) :
    ∀ q ∈ ps, ∀ name ∈ q.form.columns, VisibleName t a name := by
  intro q hq name hname
  obtain _ | _ := h
  · cases hq
  · rw [List.mem_singleton] at hq
    subst hq
    rw [form_searchGroup, Form.columns, Form.columnsList_eq, List.flatMap_map] at hname
    obtain ⟨c, hc, hname⟩ := List.mem_flatMap.mp hname
    exact ⟨c.field, c.column, mem_visibleColumns.mp hc, (List.mem_singleton.mp hname).symm⟩

theorem Plan.OrderPart.visible {sort : Option SortKey} {order : Option (Column × SortDirection)}
    (h : OrderPart t a sort order) : ∀ c d, order = some (c, d) → VisibleName t a c.name := by
  intro c d horder
  obtain _ | hv := h
  · cases horder
  · cases horder
    exact ⟨_, c, hv, rfl⟩

/-- The clause of a plan is proper, but for the column of deleted rows at its start. -/
theorem Planned.clause_cases (hp : Planned clock l t a o p) :
    Proper t a (Predicate.whereClause 0 p.conditions) ∨
      ∃ column rest, o.excludeDeleted = true ∧ t.deletedAt = some column ∧
        Predicate.whereClause 0 p.conditions =
          .words " WHERE " :: .name column :: .words " IS NULL" :: rest ∧
        Proper t a rest := by
  obtain ⟨live, filters, found, hlive, hfilters, hfound, hconditions⟩ := hp.conditions
  have hrest : ∀ name ∈ (filters ++ found).flatMap (fun q => q.form.columns),
      name = t.name ∨ VisibleName t a name := by
    intro name hname
    obtain ⟨q, hq, hname⟩ := List.mem_flatMap.mp hname
    rcases List.mem_append.mp hq with hq | hq
    · exact .inr (hfilters.visible q hq name hname)
    · exact .inr (hfound.visible q hq name hname)
  rw [hconditions]
  generalize o.excludeDeleted = exclude at hlive
  rcases hlive with _ | _ | hmark
  · rw [← Predicate.idents_whereClause 0] at hrest
    exact .inl hrest
  · rw [← Predicate.idents_whereClause 0] at hrest
    exact .inl hrest
  · rw [List.append_assoc, List.singleton_append, Plan.whereClause_isNull_cons]
    rw [← Plan.idents_further] at hrest
    exact .inr ⟨_, _, rfl, hmark, rfl, hrest⟩

theorem Plan.OrderPart.key_visible {sort : Option SortKey}
    {order : Option (Column × SortDirection)} (h : OrderPart t a sort order) {key : SortKey}
    (hkey : sort = some key) : ∃ c, Visible t a key.field c := by
  obtain _ | hv := h
  · cases hkey
  · cases hkey
    exact ⟨_, hv⟩

/-! ### A statement about a source -/

/-- An item of a list is the item at a place in it, or one before or after that place. -/
theorem split_at_item {α : Type} {before after front back : List α} {x y : α}
    (h : before ++ x :: after = front ++ y :: back) :
    x ∈ front ∨ (before = front ∧ x = y ∧ after = back) ∨ x ∈ back := by
  rcases List.append_eq_append_iff.mp h with ⟨between, rfl, hx⟩ | ⟨between, rfl, hy⟩
  · cases between with
    | nil =>
        cases hx
        exact .inr (.inl ⟨(List.append_nil _).symm, rfl, rfl⟩)
    | cons z between =>
        cases hx
        exact .inl (List.mem_append_right _ List.mem_cons_self)
  · cases between with
    | nil =>
        cases hy
        exact .inr (.inl ⟨List.append_nil _, rfl, rfl⟩)
    | cons z between =>
        cases hy
        exact .inr (.inr (List.mem_append_right _ List.mem_cons_self))

/-- **A statement that reads from the source of a plan is confined, if what stands around the source
is proper.** -/
theorem source_confined (hp : Planned clock l t a o p) {front back : List Piece}
    (hfront : Proper t a front) (hback : Proper t a back)
    (htidy : Piece.Tidy (front ++ p.source ++ back)) {b : Backend} {before after : List Token}
    {name : String}
    (h : Sql.tokens (Piece.text b (front ++ p.source ++ back)) = before ++ .name name :: after) :
    Confined t a o.excludeDeleted before name after := by
  rw [Plan.source, hp.table] at h htidy
  rcases hp.clause_cases with hclause | ⟨column, rest, hexclude, hmark, hclause, hrest⟩
  · have hall := (hfront.append (Proper.from_table.append hclause)).append hback
    have hname : Token.name name ∈ before ++ .name name :: after :=
      List.mem_append_right _ List.mem_cons_self
    rw [← h] at hname
    exact hall.confined ((Piece.name_mem_tokens_text htidy b name).mp hname)
  · -- the clause starts with the column of deleted rows; every other name is before or after it
    have hsplit : front ++ (.words " FROM " :: .name t.name ::
          Predicate.whereClause 0 p.conditions) ++ back =
        ((front ++ [.words " FROM ", .name t.name]) ++ [.words " WHERE "]) ++ .name column ::
          ([.words " IS NULL"] ++ (rest ++ back)) := by
      rw [hclause]
      simp only [List.append_assoc, List.cons_append, List.nil_append]
    have hwhere : Piece.tokens b (.words " WHERE ") = marks " WHERE " := rfl
    have hnull : Piece.tokens b (.words " IS NULL") = marks " IS NULL" := rfl
    have hplain := htidy.plain
    rw [Piece.tokens_text htidy] at h
    rw [hsplit] at h hplain
    rw [List.flatMap_append, List.flatMap_cons, Piece.tokens_name, List.singleton_append] at h
    rcases split_at_item h.symm with hn | ⟨hbefore, hn, hafter⟩ | hn
    · have hwords : Proper t a [.words " WHERE "] := .of_idents_nil rfl
      have hall := (hfront.append .from_table).append hwords
      have hpieces := fun q hq => hplain q (List.mem_append_left _ hq)
      exact hall.confined ((Piece.name_mem_flatMap_iff hpieces b name).mp hn)
    · cases hn
      refine .mark hexclude hmark ?_ ?_
      · rw [hbefore, List.flatMap_append, List.flatMap_singleton, hwhere]
        exact List.suffix_append _ _
      · rw [hafter, List.flatMap_append, List.flatMap_singleton, hnull]
        exact List.prefix_append _ _
    · have hwords : Proper t a [.words " IS NULL"] := .of_idents_nil rfl
      have hall := hwords.append (hrest.append hback)
      have hpieces := fun q hq => hplain q (List.mem_append_right _ (List.mem_cons_of_mem _ hq))
      exact hall.confined ((Piece.name_mem_flatMap_iff hpieces b name).mp hn)

/-! ### The two statements of a plan -/

theorem Planned.proper_heading (hp : Planned clock l t a o p) : Proper t a p.heading := by
  intro name hname
  have hjoined : name ∈
      Piece.idents (Piece.joined ", " (p.columns.map fun c => [.name c.column.name])) := hname
  rw [Piece.idents_joined, List.flatMap_map, hp.columns] at hjoined
  obtain ⟨c, hc, hname⟩ := List.mem_flatMap.mp hjoined
  exact .inr ⟨c.field, c.column, mem_visibleColumns.mp hc, (List.mem_singleton.mp hname).symm⟩

theorem Planned.proper_ending (hp : Planned clock l t a o p) : Proper t a p.ending := by
  refine Proper.append ?_ (.of_idents_nil rfl)
  intro name hname
  rw [Plan.orderClause] at hname
  split at hname
  · rename_i c d horder
    rw [List.mem_singleton.mp hname]
    exact .inr (hp.order.visible c d horder)
  · cases hname

theorem select_confined (hp : Planned clock l t a o p) {b : Backend} {before after : List Token}
    {name : String} (h : Sql.tokens (p.select.text b) = before ++ .name name :: after) :
    Confined t a o.excludeDeleted before name after := by
  have htidy := p.spaced_select.tidy
  rw [Statement.text, Plan.select_pieces] at h
  rw [Plan.select_pieces] at htidy
  exact source_confined hp hp.proper_heading hp.proper_ending htidy h

theorem count_confined (hp : Planned clock l t a o p) {b : Backend} {before after : List Token}
    {name : String} (h : Sql.tokens (p.count.text b) = before ++ .name name :: after) :
    Confined t a o.excludeDeleted before name after := by
  have hpieces : p.count.pieces = [.words "SELECT COUNT(*)"] ++ p.source ++ [] :=
    (List.append_nil _).symm
  have htidy := p.spaced_count.tidy
  rw [Statement.text, hpieces] at h
  rw [hpieces] at htidy
  exact source_confined hp (.of_idents_nil rfl) (.of_idents_nil rfl) htidy h

/-! ### Which requests are planned -/

/-- Every field with an operation is visible, also where the operator skips the value. -/
theorem Plan.FilterPart.fields_visible {fields : List (String × Json)} {ps : List Predicate}
    (h : FilterPart clock l t a (some (.obj fields)) ps) {field : String}
    {ops : List (String × Json)} (hfield : (field, .obj ops) ∈ fields) (hops : ops ≠ []) :
    ∃ c, Visible t a field c := by
  obtain _ | ⟨-, -, compiled⟩ := h
  obtain ⟨op, hop⟩ := List.exists_mem_of_ne_nil ops hops
  obtain ⟨r, -, c, hread, hc, -⟩ :=
    exists_of_mem_left compiled (Filter.mem_written hfield hop)
  obtain ⟨col, hcol, -⟩ := Condition.compile_eq_ok_iff.mp hc
  rw [hread.field] at hcol
  exact ⟨col, hcol⟩

/-- With another sort key, a request is planned exactly if the key's field is visible, and then to
the same plan in the order of that field. -/
theorem Planned.sorted_iff (hp : Planned clock l t a o p) {key : SortKey} {q : Plan} :
    Planned clock l t a { o with sort := some key } q ↔
      ∃ c, Visible t a key.field c ∧ q = { p with order := some (c, key.direction) } := by
  have hsorted : ∀ c, Visible t a key.field c →
      Planned clock l t a { o with sort := some key }
        { p with order := some (c, key.direction) } := by
    intro c hc
    exact {
      table := hp.table
      conditions := hp.conditions
      columns := hp.columns
      visible := hp.visible
      asked := hp.asked
      order := .present hc
      page := hp.page
      limit := hp.limit }
  constructor
  · intro hq
    obtain ⟨c, hc⟩ := hq.order.key_visible rfl
    -- a request has one plan
    have hplan := plan_eq_ok_iff.mpr (hsorted c hc)
    rw [plan_eq_ok_iff.mpr hq] at hplan
    exact ⟨c, hc, Except.ok.inj hplan⟩
  · rintro ⟨c, hc, rfl⟩
    exact hsorted c hc

/-- **What a request can reach is what its allow-list has and its table declares.**  The names in
both statements are confined; every field with an operation, and the field of the order, is visible;
and a request that is planned at all is planned in the order of a field exactly if `resolve` accepts
the field, with the column it is resolved to in the text. -/
theorem plan_confined (h : plan clock l t a o = .ok p) :
    (∀ b, ∀ s ∈ [p.select, p.count], ∀ before name after,
      Sql.tokens (s.text b) = before ++ .name name :: after →
        Confined t a o.excludeDeleted before name after) ∧
    (∀ fields field ops, o.filter = some (.obj fields) → (field, .obj ops) ∈ fields → ops ≠ [] →
      ∃ c, Visible t a field c) ∧
    (∀ key, o.sort = some key → ∃ c, Visible t a key.field c) ∧
    (∀ key, (∃ q, plan clock l t a { o with sort := some key } = .ok q) ↔
      ∃ c, resolve t a key.field = .ok c) ∧
    (∀ key q, plan clock l t a { o with sort := some key } = .ok q →
      ∃ c, resolve t a key.field = .ok c ∧ ∀ b, ∃ head,
        p.select.text b = head ++ Plan.orderText p.order ++ p.windowText ∧
        q.select.text b = head ++ (" ORDER BY " ++ Piece.quoted c.name ++ " " ++
          key.direction.keyword) ++ p.windowText ∧
        q.count.text b = p.count.text b) := by
  have hp := plan_eq_ok_iff.mp h
  refine ⟨?_, ?_, ?_, ?_, ?_⟩
  · intro b s hs before name after htokens
    rcases List.mem_cons.mp hs with rfl | hs
    · exact select_confined hp htokens
    · rw [List.mem_singleton.mp hs] at htokens
      exact count_confined hp htokens
  · intro fields field ops hfilter hfield hops
    obtain ⟨live, filters, found, -, hfilters, -, -⟩ := hp.conditions
    rw [hfilter] at hfilters
    exact hfilters.fields_visible hfield hops
  · intro key hkey
    exact hp.order.key_visible hkey
  · intro key
    constructor
    · rintro ⟨q, hq⟩
      obtain ⟨c, hc, -⟩ := hp.sorted_iff.mp (plan_eq_ok_iff.mp hq)
      exact ⟨c, resolve_eq_ok_iff.mpr hc⟩
    · rintro ⟨c, hc⟩
      exact ⟨_, plan_eq_ok_iff.mpr (hp.sorted_iff.mpr ⟨c, resolve_eq_ok_iff.mp hc, rfl⟩)⟩
  · intro key q hq
    obtain ⟨c, hc, rfl⟩ := hp.sorted_iff.mp (plan_eq_ok_iff.mp hq)
    exact ⟨c, resolve_eq_ok_iff.mpr hc, fun b => ⟨_, p.text_select b,
      Plan.text_select { p with order := some (c, key.direction) } b, rfl⟩⟩

theorem plan_confined_grownUps :
    ∃ p, plan ⟨0, .utc⟩ {} people peopleAllowed grownUps = .ok p ∧
      (∀ b, ∀ s ∈ [p.select, p.count], ∀ before name after,
        Sql.tokens (s.text b) = before ++ .name name :: after →
          Confined people peopleAllowed true before name after) ∧
      ¬ ∃ q, plan ⟨0, .utc⟩ {} people peopleAllowed
        { grownUps with sort := some ⟨"ssn", .asc⟩ } = .ok q := by
  have h : plan ⟨0, .utc⟩ {} people peopleAllowed grownUps = .ok _ := rfl
  obtain ⟨hnames, -, -, hsort, -⟩ := plan_confined h
  refine ⟨_, h, hnames, ?_⟩
  rw [hsort]
  rintro ⟨c, hc⟩
  cases hc

end ResourceQuery
