import ResourceQuery.Proofs.Query.Plan
import ResourceQuery.Proofs.Store.Row

/-!
# Query — rows aligned with columns

The columns of a plan are selected by position, and returned by field.

* `pairwise_eraseDups`: an allow-list keeps its names in the order of their first places.
* `rows_aligned`: so the columns of a plan are the visible ones in this order, each field once;
  the statement for the rows selects their columns in turn, and a row has the cell of each under its
  field.
-/

namespace ResourceQuery

/-! ### First places -/

/-- Names that are kept keep the order of their first places. -/
theorem idxOf_lt_of_filter {keep : String → Bool} {x y : String} (hx : keep x = true)
    (hy : keep y = true) : ∀ {names : List String},
    (names.filter keep).idxOf x < (names.filter keep).idxOf y → names.idxOf x < names.idxOf y
  | [], h => h
  | z :: names, h => by
      by_cases hz : keep z = true
      · rw [List.filter_cons_of_pos hz] at h
        by_cases hzy : z = y
        · subst hzy
          rw [List.idxOf_cons_self] at h
          exact absurd h (Nat.not_lt_zero _)
        · by_cases hzx : z = x
          · subst hzx
            rw [List.idxOf_cons_self, List.idxOf_cons_ne _ hzy]
            exact Nat.succ_pos _
          · rw [List.idxOf_cons_ne _ hzx, List.idxOf_cons_ne _ hzy] at h ⊢
            exact Nat.succ_lt_succ (idxOf_lt_of_filter hx hy (Nat.lt_of_succ_lt_succ h))
      · rw [List.filter_cons_of_neg hz] at h
        have hzx : z ≠ x := by
          rintro rfl
          exact hz hx
        have hzy : z ≠ y := by
          rintro rfl
          exact hz hy
        rw [List.idxOf_cons_ne _ hzx, List.idxOf_cons_ne _ hzy]
        exact Nat.succ_lt_succ (idxOf_lt_of_filter hx hy h)

/-- **Without repetitions, names are in the order of their first places.** -/
theorem pairwise_eraseDups : ∀ names : List String,
    names.eraseDups.Pairwise fun x y => names.idxOf x < names.idxOf y
  | [] => by simp
  | z :: names => by
      have hother : ∀ {y}, y ∈ (names.filter fun x => !x == z).eraseDups → (!y == z) = true := by
        intro y hy
        exact (List.mem_filter.mp (List.mem_eraseDups.mp hy)).2
      have hne : ∀ {y}, (!y == z) = true → z ≠ y := by
        rintro y hy rfl
        simp at hy
      rw [List.eraseDups_cons, List.pairwise_cons]
      constructor
      · intro y hy
        rw [List.idxOf_cons_self, List.idxOf_cons_ne _ (hne (hother hy))]
        exact Nat.succ_pos _
      · refine (pairwise_eraseDups _).imp_of_mem fun {x y} hx hy h => ?_
        rw [List.idxOf_cons_ne _ (hne (hother hx)), List.idxOf_cons_ne _ (hne (hother hy))]
        exact Nat.succ_lt_succ (idxOf_lt_of_filter (hother hx) (hother hy) h)
termination_by names => names.length
decreasing_by exact Nat.lt_succ_of_le (List.length_filter_le _ _)

/-! ### Columns -/

variable {clock : Clock} {l : Limits} {t : Table} {o : QueryOptions} {p : Plan}

/-- The visible columns are in the order of their fields' first places among the names allowed. -/
theorem pairwise_visibleColumns (t : Table) (names : List String) :
    (visibleColumns t (.ofList names)).Pairwise fun c d =>
      names.idxOf c.field < names.idxOf d.field := by
  refine (pairwise_eraseDups names).filterMap _ ?_
  intro x y h c hc d hd
  obtain ⟨_, -, rfl⟩ := Option.map_eq_some_iff.mp hc
  obtain ⟨_, -, rfl⟩ := Option.map_eq_some_iff.mp hd
  exact h

theorem nodup_fields_visibleColumns (t : Table) (names : List String) :
    ((visibleColumns t (.ofList names)).map Projected.field).Nodup := by
  refine List.pairwise_map.mpr ((pairwise_visibleColumns t names).imp ?_)
  intro c d h heq
  rw [heq] at h
  exact Nat.lt_irrefl _ h

/-- The statement for the rows selects the columns of the plan in turn. -/
theorem Plan.text_select_columns (p : Plan) (b : Backend) :
    ∃ rest, p.select.text b =
      "SELECT " ++ ", ".intercalate (p.columns.map fun c => Piece.quoted c.column.name) ++
        " FROM " ++ Piece.quoted p.table ++ rest := by
  refine ⟨clauseText b p.conditions ++ orderText p.order ++ p.windowText, ?_⟩
  rw [text_select, Piece.text_append, text_heading, text_source]
  simp only [String.append_assoc]

/-- **Columns, selected names and rows are aligned.** -/
theorem rows_aligned {names : List String} (h : plan clock l t (.ofList names) o = .ok p) :
    (p.columns.map Projected.field).Nodup ∧
    (∀ c, c ∈ p.columns ↔ c.field ∈ names ∧ t.column? c.field = some c.column) ∧
    (p.columns.Pairwise fun c d => names.idxOf c.field < names.idxOf d.field) ∧
    (∀ b, ∃ rest, p.select.text b =
      "SELECT " ++ ", ".intercalate (p.columns.map fun c => Piece.quoted c.column.name) ++
        " FROM " ++ Piece.quoted t.name ++ rest) ∧
    ∀ b read, Row.Built b read p.columns (Row.build b read p.columns) := by
  have hp := plan_eq_ok_iff.mp h
  have hnodup : (p.columns.map Projected.field).Nodup := by
    rw [hp.columns]
    exact nodup_fields_visibleColumns t names
  refine ⟨hnodup, fun c => ?_, ?_, fun b => ?_, fun b read => Row.built_build hnodup⟩
  · rw [hp.columns, mem_visibleColumns, Visible, AllowList.contains_ofList]
  · rw [hp.columns]
    exact pairwise_visibleColumns t names
  · rw [← hp.table]
    exact p.text_select_columns b

/-- People with a second field for their names. -/
def peopleTwiceNamed : Table :=
  { people with fields := ("called", ⟨"full_name", .text⟩) :: people.fields }

/-- A name that is allowed twice is returned once, and a column of two fields is returned under
both. -/
theorem rows_aligned_twiceNamed :
    ∃ p, plan ⟨0, .utc⟩ {} peopleTwiceNamed (.ofList ["called", "age", "called", "name"]) {} =
        .ok p ∧
      p.columns.map Projected.field = ["called", "age", "name"] ∧
      (p.columns.map Projected.field).Nodup ∧
      Row.Built .sqlite (Row.readStored [.text "Ann", .integer 41, .text "Ann"]) p.columns
        (.ok [("called", .str "Ann"), ("age", .int 41), ("name", .str "Ann")]) := by
  have h : plan ⟨0, .utc⟩ {} peopleTwiceNamed (.ofList ["called", "age", "called", "name"]) {} =
      .ok _ := rfl
  obtain ⟨hnodup, -, -, -, hbuilt⟩ := rows_aligned h
  exact ⟨_, h, rfl, hnodup, hbuilt .sqlite (Row.readStored [.text "Ann", .integer 41, .text "Ann"])⟩

end ResourceQuery
