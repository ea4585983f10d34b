import ResourceQuery.Proofs.Filter.Grammar
import ResourceQuery.Proofs.Query.Compile
import ResourceQuery.Query.Plan

/-!
# Query — what a request is planned to

* `plan_eq_ok_iff`: a request is planned exactly if each part of it is in order, and `Planned` says
  which plan it comes to.  The conditions have three parts: on deleted rows (`LivePart`), of the
  filter (`FilterPart`) and of the search (`SearchPart`).
* `text_select`, `text_count`: the texts of the two statements of a plan.
* `plan_clause`: both statements have the same clause, and it is made of these three parts.

A search without a visible column would come to nothing.  No plan has one: the projection asks for
some visible column, and it finds them as the search does.
-/

namespace ResourceQuery

/-- The operation comes to `r`: the predicate of the condition it is read as, or nothing where the
operator skips the value. -/
def Filter.Written.Compiles (clock : Clock) (l : Limits) (t : Table) (a : AllowList)
    (w : Filter.Written) (r : Option Predicate) : Prop :=
  ∃ c, w.Reads l c ∧ c.compile clock t a = .ok r ∧ (r = none ↔ c.operator.skips c.value = true)

namespace Plan

/-- The conditions on deleted rows: one where they are excluded and the table marks them. -/
inductive LivePart (t : Table) : Bool → List Predicate → Prop where
  | included : LivePart t false []
  | unmarked {exclude : Bool} (h : t.deletedAt = none) : LivePart t exclude []
  | excluded {column : String} (h : t.deletedAt = some column) :
      LivePart t true [.isNull ⟨column, .timestamp⟩ false]

/-- The conditions of a filter: what its operations come to, in the order of the document, without
those that come to nothing. -/
inductive FilterPart (clock : Clock) (l : Limits) (t : Table) (a : AllowList) :
    Option Json → List Predicate → Prop where
  | absent : FilterPart clock l t a none []
  | present {fields : List (String × Json)} {rs : List (Option Predicate)}
      (few : Filter.operations fields ≤ l.maxFilterOperations)
      (wellFormed : ∀ m ∈ fields, Filter.WellFormed m)
      (compiled : List.Forall₂ (Filter.Written.Compiles clock l t a) (Filter.written fields) rs) :
      FilterPart clock l t a (some (.obj fields)) (rs.filterMap id)

/-- The condition of a search: the term is part of the text of one of the visible columns. -/
def searchGroup (t : Table) (a : AllowList) (term : String) : Predicate :=
  .any ((visibleColumns t a).map fun c => .like c.column (Text.containsPattern term) false)

/-- A search has one form, whatever its term. -/
theorem form_searchGroup (t : Table) (a : AllowList) (term : String) :
    (searchGroup t a term).form =
      .any ((visibleColumns t a).map fun c =>
        .like c.column.name (c.column.type != .text) false) := by
  rw [searchGroup, Predicate.form, Predicate.forms_eq_map, List.map_map]
  rfl

/-- The conditions of a search: one group for a term, with some column in it. -/
inductive SearchPart (t : Table) (a : AllowList) : Option String → List Predicate → Prop where
  | absent : SearchPart t a none []
  | present {term : String} (visible : visibleColumns t a ≠ []) :
      SearchPart t a (some term) [searchGroup t a term]

/-- The order of the rows: by the column of a visible field. -/
inductive OrderPart (t : Table) (a : AllowList) :
    Option SortKey → Option (Column × SortDirection) → Prop where
  | absent : OrderPart t a none none
  | present {key : SortKey} {c : Column} (visible : Visible t a key.field c) :
      OrderPart t a (some key) (some (c, key.direction))

end Plan

/-- The request is planned to `p`. -/
structure Planned (clock : Clock) (l : Limits) (t : Table) (a : AllowList) (o : QueryOptions)
    (p : Plan) : Prop where
  table : p.table = t.name
  conditions : ∃ live filters found, Plan.LivePart t o.excludeDeleted live ∧
    Plan.FilterPart clock l t a o.filter filters ∧ Plan.SearchPart t a o.search found ∧
    p.conditions = live ++ filters ++ found
  columns : p.columns = visibleColumns t a
  visible : visibleColumns t a ≠ []
  /-- A list of fields asked for has one that is allowed. -/
  asked : ∀ fields, o.fields = some fields → fields.any a.contains = true
  order : Plan.OrderPart t a o.sort p.order
  page : p.page = max o.page 1
  limit : l.clamp? o.limit = some p.limit

variable {clock : Clock} {l : Limits} {t : Table} {a : AllowList} {o : QueryOptions}

/-! ### The parts of a plan -/

/-- Deleted rows that are marked and excluded are so by one condition. -/
theorem Plan.LivePart.eq_isNull {ps : List Predicate} {column : String}
    (h : LivePart t true ps) (hmark : t.deletedAt = some column) :
    ps = [.isNull ⟨column, .timestamp⟩ false] := by
  rcases h with _ | hnone | hsome
  · rw [hnone] at hmark
    cases hmark
  · rw [hsome] at hmark
    cases hmark
    rfl

theorem liveness_eq_iff {ps : List Predicate} :
    liveness t o = ps ↔ Plan.LivePart t o.excludeDeleted ps := by
  rw [liveness]
  cases o.excludeDeleted with
  | false =>
      constructor
      · rintro rfl
        exact .included
      · rintro (_ | _)
        · rfl
        · rfl
  | true =>
      cases hmark : t.deletedAt with
      | none =>
          constructor
          · rintro rfl
            exact .unmarked hmark
          · rintro (_ | _ | h)
            · rfl
            · rw [hmark] at h
              cases h
      | some column =>
          constructor
          · rintro rfl
            exact .excluded hmark
          · intro h
            exact (h.eq_isNull hmark).symm

theorem filterConditions_eq_ok_iff {ps : List Predicate} :
    filterConditions clock l t a o = .ok ps ↔ Plan.FilterPart clock l t a o.filter ps := by
  rw [filterConditions]
  cases o.filter with
  | none =>
      constructor
      · intro h
        cases h
        exact .absent
      · rintro ⟨⟩
        rfl
  | some j =>
      dsimp only
      constructor
      · intro h
        cases hv : Filter.validate l j with
        | error vs =>
            rw [hv] at h
            cases h
        | ok cs =>
            rw [hv] at h
            obtain ⟨fields, rfl, few, wellFormed, hread⟩ := Filter.validate_eq_ok_iff.mp hv
            obtain ⟨rs, hrs, rfl⟩ := map_eq_ok_iff.mp h
            -- what is read is what is compiled, so the two lists are related item by item
            have hcompiled := (mapM_eq_ok_iff.mp hrs).imp fun c r hr =>
              (⟨hr, Condition.compile_eq_none_iff hr⟩ :
                _ ∧ (r = none ↔ c.operator.skips c.value = true))
            exact .present few wellFormed (forall₂_comp_iff.mp ⟨cs, hread, hcompiled⟩)
      · rintro (_ | ⟨few, wellFormed, compiled⟩)
        obtain ⟨cs, hread, hrs⟩ := forall₂_comp_iff.mpr compiled
        rw [Filter.validate_eq_ok_iff.mpr ⟨_, rfl, few, wellFormed, hread⟩]
        exact map_eq_ok_iff.mpr ⟨_, mapM_eq_ok_iff.mpr (hrs.imp fun _ _ hr => hr.1), rfl⟩

theorem searchConditions_eq_iff (hne : visibleColumns t a ≠ []) {ps : List Predicate} :
    searchConditions t a o = ps ↔ Plan.SearchPart t a o.search ps := by
  rw [searchConditions]
  cases o.search with
  | none =>
      constructor
      · rintro rfl
        exact .absent
      · rintro ⟨⟩
        rfl
  | some term =>
      -- this is where a search would be lost without a visible column
      have hgroup : search? t a term = some (Plan.searchGroup t a term) := by
        rw [search?, Plan.searchGroup]
        split
        · exact absurd ‹_› hne
        · rfl
      dsimp only
      rw [hgroup]
      constructor
      · rintro rfl
        exact .present hne
      · rintro ⟨⟩
        rfl

theorem project_of_asked (h : ∀ fields, o.fields = some fields → fields.any a.contains = true) :
    project t a o =
      if visibleColumns t a = [] then .error .noValidFields else .ok (visibleColumns t a) := by
  rw [project]
  cases ho : o.fields with
  | none => cases visibleColumns t a <;> rfl
  | some fields =>
      simp only [h fields ho, Bool.not_true, Bool.false_eq_true, if_false]
      cases visibleColumns t a <;> rfl

theorem project_eq_ok_iff {cs : List Projected} :
    project t a o = .ok cs ↔
      (∀ fields, o.fields = some fields → fields.any a.contains = true) ∧
        visibleColumns t a ≠ [] ∧ cs = visibleColumns t a := by
  constructor
  · intro h
    have asked : ∀ fields, o.fields = some fields → fields.any a.contains = true := by
      intro fields ho
      by_contra hany
      rw [project, ho] at h
      simp only [hany, Bool.not_false, if_true] at h
      cases h
    rw [project_of_asked asked] at h
    split at h
    · cases h
    · rename_i hne
      exact ⟨asked, hne, (Except.ok.inj h).symm⟩
  · rintro ⟨asked, hne, rfl⟩
    rw [project_of_asked asked, if_neg hne]

theorem sortColumn_eq_ok_iff {order : Option (Column × SortDirection)} :
    sortColumn t a o = .ok order ↔ Plan.OrderPart t a o.sort order := by
  rw [sortColumn]
  cases o.sort with
  | none =>
      constructor
      · intro h
        cases h
        exact .absent
      · rintro ⟨⟩
        rfl
  | some key =>
      dsimp only
      constructor
      · intro h
        split at h
        · rename_i c hc
          split at h
          · rename_i ha
            cases h
            exact .present ⟨ha, hc⟩
          · cases h
        · cases h
      · rintro (_ | ⟨ha, hc⟩)
        rw [hc]
        exact if_pos ha

/-- **What a request is planned to, and when it is planned at all.** -/
theorem plan_eq_ok_iff {p : Plan} : plan clock l t a o = .ok p ↔ Planned clock l t a o p := by
  rw [plan]
  constructor
  · intro h
    cases hlimit : l.clamp? o.limit with
    | none =>
        rw [hlimit] at h
        cases h
    | some limit =>
        rw [hlimit] at h
        obtain ⟨filters, hfilters, h⟩ := bind_eq_ok_iff.mp (mapError_eq_ok_iff.mp h)
        obtain ⟨columns, hcolumns, h⟩ := bind_eq_ok_iff.mp h
        obtain ⟨order, horder, h⟩ := bind_eq_ok_iff.mp h
        cases h
        obtain ⟨asked, visible, rfl⟩ := project_eq_ok_iff.mp hcolumns
        exact {
          table := rfl
          conditions := ⟨_, _, _, liveness_eq_iff.mp rfl, filterConditions_eq_ok_iff.mp hfilters,
            (searchConditions_eq_iff visible).mp rfl, rfl⟩
          columns := rfl
          visible, asked
          order := sortColumn_eq_ok_iff.mp horder
          page := rfl
          limit := hlimit }
  · intro h
    obtain ⟨live, filters, found, hlive, hfilters, hfound, hconditions⟩ := h.conditions
    -- the parts that may fail, in the order the plan looks for them
    rw [h.limit]
    refine mapError_eq_ok_iff.mpr ?_
    refine bind_eq_ok_iff.mpr ⟨_, filterConditions_eq_ok_iff.mpr hfilters, ?_⟩
    refine bind_eq_ok_iff.mpr ⟨_, project_eq_ok_iff.mpr ⟨h.asked, h.visible, rfl⟩, ?_⟩
    refine bind_eq_ok_iff.mpr ⟨_, sortColumn_eq_ok_iff.mpr h.order, ?_⟩
    rw [liveness_eq_iff.mpr hlive, (searchConditions_eq_iff h.visible).mpr hfound, ← hconditions,
      ← h.table, ← h.columns, ← h.page]
    rfl

/-! ### The texts of the two statements -/

namespace Plan

/-- The text of an order. -/
def orderText : Option (Column × SortDirection) → String
  | none => ""
  | some (c, d) => " ORDER BY " ++ Piece.quoted c.name ++ " " ++ d.keyword

/-- The text of the clause that the conditions hold. -/
def clauseText (b : Backend) (ps : List Predicate) : String :=
  Piece.text b (Predicate.whereClause 0 ps)

theorem text_source (p : Plan) (b : Backend) :
    Piece.text b p.source = " FROM " ++ Piece.quoted p.table ++ clauseText b p.conditions := by
  simp [source, clauseText, String.append_assoc]

theorem text_orderClause (p : Plan) (b : Backend) :
    Piece.text b p.orderClause = orderText p.order := by
  rw [orderClause]
  cases p.order with
  | none => rfl
  | some key => simp [orderText, String.append_assoc]

/-- What stands before the source of the statement for rows. -/
def heading (p : Plan) : List Piece :=
  .words "SELECT " :: Piece.joined ", " (p.columns.map fun c => [.name c.column.name])

/-- What stands after the source of the statement for rows. -/
def ending (p : Plan) : List Piece :=
  p.orderClause ++ [.words " ", Piece.window p.limit.toNat p.offset]

/-- The text of a window on the rows. -/
def windowText (p : Plan) : String :=
  " LIMIT " ++ toString p.limit.toNat ++ " OFFSET " ++ toString p.offset

theorem text_heading (p : Plan) (b : Backend) :
    Piece.text b p.heading =
      "SELECT " ++ ", ".intercalate (p.columns.map fun c => Piece.quoted c.column.name) := by
  have hname : ∀ c ∈ p.columns,
      Piece.text b [.name c.column.name] = Piece.quoted c.column.name := by
    intro c _
    simp
  rw [heading, Piece.text_words_cons, Piece.text_joined, List.map_map]
  exact congrArg (fun names => "SELECT " ++ ", ".intercalate names) (List.map_congr_left hname)

theorem text_window (p : Plan) (b : Backend) :
    Piece.text b [.words " ", Piece.window p.limit.toNat p.offset] = p.windowText := by
  have hlimit : " LIMIT " = " " ++ "LIMIT " := rfl
  rw [windowText, hlimit, Piece.text_words_cons, Piece.text_cons, Piece.chars_window]
  -- a full simp would spell the literals out, character by character
  simp only [Piece.text_nil, String.ofList_toList, String.append_empty, String.append_assoc]

theorem select_pieces (p : Plan) : p.select.pieces = p.heading ++ p.source ++ p.ending := by
  rw [select, heading, ending, ← List.append_assoc]

/-- The order of a plan stands between what it reads from and its window. -/
theorem text_select (p : Plan) (b : Backend) :
    p.select.text b =
      Piece.text b (p.heading ++ p.source) ++ orderText p.order ++ p.windowText := by
  rw [Statement.text, select_pieces, Piece.text_append b (p.heading ++ p.source), ending,
    Piece.text_append b p.orderClause, text_orderClause, text_window, ← String.append_assoc]

theorem text_count (p : Plan) (b : Backend) :
    p.count.text b =
      "SELECT COUNT(*) FROM " ++ Piece.quoted p.table ++ clauseText b p.conditions := by
  rw [Statement.text, count, Piece.text_words_cons, text_source, ← String.append_assoc,
    ← String.append_assoc]
  rfl

/-- Further conditions after one that binds no values. -/
def further : List Predicate → List Piece
  | [] => []
  | p :: ps => .words " AND " :: Predicate.piecesList " AND " 0 (p :: ps)

theorem whereClause_isNull_cons (c : Column) (ps : List Predicate) :
    Predicate.whereClause 0 (.isNull c false :: ps) =
      .words " WHERE " :: .name c.name :: .words " IS NULL" :: further ps := by
  cases ps <;> rfl

theorem clauseText_isNull_cons (b : Backend) (c : Column) (ps : List Predicate) :
    clauseText b (.isNull c false :: ps) =
      " WHERE " ++ Piece.quoted c.name ++ " IS NULL" ++ Piece.text b (further ps) := by
  simp [clauseText, whereClause_isNull_cons, String.append_assoc]

end Plan

/-- **Both statements of a plan have one clause, made of the condition on deleted rows, those of
the filter in the order of the document and the group of the search.**  The condition on deleted
rows comes first, and the rest of the clause after its `AND`, whatever else is asked for. -/
theorem plan_clause {p : Plan} (h : plan clock l t a o = .ok p) :
    ∃ live filters found,
      Plan.LivePart t o.excludeDeleted live ∧
      Plan.FilterPart clock l t a o.filter filters ∧
      Plan.SearchPart t a o.search found ∧
      Plan.OrderPart t a o.sort p.order ∧
      l.clamp? o.limit = some p.limit ∧
      (∀ b, ∃ clause,
        clause = Plan.clauseText b (live ++ filters ++ found) ∧
        p.select.text b =
          "SELECT " ++
            ", ".intercalate ((visibleColumns t a).map fun c => Piece.quoted c.column.name) ++
            " FROM " ++ Piece.quoted t.name ++ clause ++ Plan.orderText p.order ++
            " LIMIT " ++ toString p.limit.toNat ++
            " OFFSET " ++ toString (((max o.page 1).toNat - 1) * p.limit.toNat) ∧
        p.count.text b = "SELECT COUNT(*) FROM " ++ Piece.quoted t.name ++ clause ∧
        (o.excludeDeleted = true → ∀ column, t.deletedAt = some column →
          clause = " WHERE " ++ Piece.quoted column ++ " IS NULL" ++
            Piece.text b (Plan.further (filters ++ found)))) ∧
      p.select.params = Predicate.paramsList (live ++ filters ++ found) ∧
      p.count.params = Predicate.paramsList (live ++ filters ++ found) := by
  have hp := plan_eq_ok_iff.mp h
  obtain ⟨live, filters, found, hlive, hfilters, hfound, hconditions⟩ := hp.conditions
  refine ⟨live, filters, found, hlive, hfilters, hfound, hp.order, hp.limit, fun b => ?_, ?_, ?_⟩
  · refine ⟨_, rfl, ?_, ?_, ?_⟩
    · rw [Plan.text_select, Piece.text_append, Plan.text_heading, Plan.text_source,
        Plan.windowText, Plan.offset, hp.table, hp.columns, hp.page, hconditions]
      simp only [String.append_assoc]
    · rw [Plan.text_count, hp.table, hconditions]
    · intro hexclude column hcolumn
      rw [hexclude] at hlive
      have hfirst := hlive.eq_isNull hcolumn
      rw [hfirst, List.append_assoc, List.singleton_append]
      exact Plan.clauseText_isNull_cons b _ _
  · exact congrArg Predicate.paramsList hconditions
  · exact congrArg Predicate.paramsList hconditions

/-- A table of people, which marks deleted rows. -/
def people : Table where
  name := "people"
  fields := [("name", ⟨"full_name", .text⟩), ("age", ⟨"age", .integer⟩), ("ssn", ⟨"ssn", .text⟩)]
  deletedAt := some "deleted_at"

/-- The fields of people that callers may touch. -/
def peopleAllowed : AllowList :=
  .ofList ["name", "age"]

/-- Grown-ups by the name of Ann, the oldest first.  The empty set is skipped. -/
def grownUps : QueryOptions where
  sort := some ⟨"age", .desc⟩
  search := some "ann"
  filter := some (.obj [("age", .obj [("gte", .int 18), ("in", .arr [])])])

theorem plan_clause_grownUps :
    ∃ p live filters found, plan ⟨0, .utc⟩ {} people peopleAllowed grownUps = .ok p ∧
      p.count.text .sqlite =
        "SELECT COUNT(*) FROM \"people\" WHERE \"deleted_at\" IS NULL AND \"age\" >= ? AND " ++
          "(\"full_name\" LIKE ? ESCAPE '\\' OR CAST(\"age\" AS TEXT) LIKE ? ESCAPE '\\')" ∧
      Plan.LivePart people true live ∧
      Plan.FilterPart ⟨0, .utc⟩ {} people peopleAllowed grownUps.filter filters ∧
      Plan.SearchPart people peopleAllowed grownUps.search found ∧
      p.count.params = Predicate.paramsList (live ++ filters ++ found) := by
  have h : plan ⟨0, .utc⟩ {} people peopleAllowed grownUps = .ok _ := rfl
  obtain ⟨live, filters, found, hlive, hfilters, hfound, -, -, -, -, hparams⟩ := plan_clause h
  exact ⟨_, live, filters, found, h, by decide +kernel, hlive, hfilters, hfound, hparams⟩

end ResourceQuery
