import ResourceQuery.Proofs.Filter.Outcome
import ResourceQuery.Proofs.Query.Backends
import ResourceQuery.Proofs.Query.Plan

/-!
# Query — how many values a request binds

A statement carries at most so many values as its backend takes.  How many it carries is told by the
limits that a filter is held to and by the columns that a search looks into.

* `Filter.Written.Compiles.length_params_le`: an operation binds as many values as an array may have
  elements at most, and never more than two otherwise.
* `Filter.length_written_le`: there are no more operations than are counted.
* `Plan.FilterPart.length_le`, `Plan.FilterPart.length_params_le`: so the conditions of a filter,
  and the values they bind, are bounded.
* `planFor_capacity`: and so are the values of a whole request.
-/

namespace ResourceQuery

variable {clock : Clock} {l : Limits} {t : Table} {a : AllowList} {o : QueryOptions}

/-- Conditions that bind at most `k` values each. -/
theorem Predicate.length_paramsList_le {k : Nat} : ∀ {ps : List Predicate},
    (∀ p ∈ ps, p.params.length ≤ k) → (paramsList ps).length ≤ ps.length * k
  | [], _ => Nat.zero_le _
  | p :: ps, h => by
      have hfirst := h p List.mem_cons_self
      have hrest := length_paramsList_le fun q hq => h q (List.mem_cons_of_mem p hq)
      rw [paramsList, List.length_append, List.length_cons, Nat.succ_mul]
      omega

/-! ### One operation -/

/-- A set has as many elements as its array, or one. -/
theorem Condition.length_elements_le {v : Value} (within : Filter.Within l v) :
    (elements v).length ≤ max 2 l.maxArrayLength := by
  cases v with
  | list xs => exact Nat.le_trans (within.few xs rfl) (Nat.le_max_right 2 _)
  | scalar x =>
      have hone : (elements (.scalar x)).length ≤ 2 := by
        cases x <;> simp [elements]
      exact Nat.le_trans hone (Nat.le_max_left 2 _)

theorem Operator.arity_form?_le {op : Operator} {col : Column} {v : Value} {f : Form}
    (within : Filter.Within l v) (h : op.form? col v.shape = some f) :
    f.arity ≤ max 2 l.maxArrayLength := by
  have htwo : 2 ≤ max 2 l.maxArrayLength := Nat.le_max_left 2 _
  have hone : 1 ≤ max 2 l.maxArrayLength := Nat.le_of_succ_le htwo
  cases op with
  | compare c =>
      obtain ⟨null, -, rfl⟩ := Option.map_eq_some_iff.mp h
      cases null with
      | false => exact hone
      | true => exact Nat.zero_le _
  | contains negated =>
      obtain ⟨null, -, rfl⟩ := Option.map_eq_some_iff.mp h
      exact hone
  | member negated =>
      rw [form?] at h
      split at h
      · cases h
      · cases h
        rw [Form.arity, Condition.elements_shape, List.length_map]
        exact Condition.length_elements_le within
  | empty negated =>
      cases h
      exact Nat.zero_le _
  | between | relative =>
      cases h
      exact htwo

namespace Filter

/-- **An operation binds no more values than an array may have, or two.** -/
theorem Written.Compiles.length_params_le {w : Written} {p : Predicate}
    (h : w.Compiles clock l t a (some p)) : p.params.length ≤ max 2 l.maxArrayLength := by
  obtain ⟨c, hread, hcompile, -⟩ := h
  obtain ⟨col, -, hp⟩ := Condition.compile_eq_ok_iff.mp hcompile
  rw [Predicate.length_params]
  exact Operator.arity_form?_le (checkValue_eq_ok_iff.mp hread.within)
    (Condition.predicate_form hp).symm

/-! ### A filter -/

theorem length_writtenOn_le (m : String × Json) : (writtenOn m).length ≤ operationCount m.2 := by
  obtain ⟨field, j⟩ := m
  cases j with
  | obj ops => exact Nat.le_of_eq (List.length_map _)
  | null | bool _ | int _ | double _ | str _ | arr _ => exact Nat.zero_le _

/-- All operations of a filter are counted. -/
theorem length_written_le : ∀ fields : List (String × Json),
    (written fields).length ≤ operations fields
  | [] => Nat.zero_le _
  | m :: fields => by
      have hrest := length_written_le fields
      rw [written] at hrest
      rw [written, List.flatMap_cons, List.length_append, operations, List.foldr_cons, ← operations]
      exact Nat.add_le_add (length_writtenOn_le m) hrest

end Filter

namespace Plan

variable {j : Option Json} {filters live found : List Predicate} {term : Option String}

/-- **A filter has no more conditions than it may have operations.** -/
theorem FilterPart.length_le (h : FilterPart clock l t a j filters) :
    filters.length ≤ l.maxFilterOperations := by
  cases h with
  | absent => exact Nat.zero_le _
  | @present fields rs few _ compiled =>
      calc (rs.filterMap id).length
        _ ≤ rs.length := List.length_filterMap_le id rs
        _ = (Filter.written fields).length := compiled.length_eq.symm
        _ ≤ Filter.operations fields := Filter.length_written_le fields
        _ ≤ l.maxFilterOperations := few

/-- **The values of a filter are bounded by its limits.** -/
theorem FilterPart.length_params_le (h : FilterPart clock l t a j filters) :
    (Predicate.paramsList filters).length ≤ l.maxFilterOperations * max 2 l.maxArrayLength := by
  have heach : ∀ p ∈ filters, p.params.length ≤ max 2 l.maxArrayLength := by
    cases h with
    | absent => exact fun _ hp => absurd hp List.not_mem_nil
    | present _ _ compiled =>
        intro p hp
        obtain ⟨r, hr, hrp⟩ := List.mem_filterMap.mp hp
        obtain ⟨w, -, hw⟩ := exists_of_mem_right compiled hr
        rw [id_eq] at hrp
        rw [hrp] at hw
        exact hw.length_params_le
  exact Nat.le_trans (Predicate.length_paramsList_le heach) (Nat.mul_le_mul_right _ h.length_le)

/-! ### A whole request -/

/-- Deleted rows are told apart without any value. -/
theorem LivePart.params_eq_nil {exclude : Bool} (h : LivePart t exclude live) :
    Predicate.paramsList live = [] := by
  cases h with
  | included | unmarked | excluded => rfl

/-- A search binds its pattern once for each visible column. -/
theorem SearchPart.length_params_le (h : SearchPart t a term found) :
    (Predicate.paramsList found).length ≤ (visibleColumns t a).length := by
  cases h with
  | absent => exact Nat.zero_le _
  | @present term _ =>
      have heach : ∀ p ∈ (visibleColumns t a).map fun c =>
          Predicate.like c.column (Text.containsPattern term) false, p.params.length ≤ 1 := by
        intro p hp
        obtain ⟨c, -, rfl⟩ := List.mem_map.mp hp
        exact Nat.le_refl 1
      have hle := Predicate.length_paramsList_le heach
      rw [List.length_map, Nat.mul_one] at hle
      rw [Predicate.paramsList, Predicate.paramsList, List.append_nil]
      exact hle

end Plan

theorem length_visibleColumns_le (t : Table) (a : AllowList) :
    (visibleColumns t a).length ≤ a.names.length :=
  List.length_filterMap_le _ _

theorem Planned.length_params_le {p : Plan} (h : Planned clock l t a o p) :
    (Predicate.paramsList p.conditions).length ≤
      l.maxFilterOperations * max 2 l.maxArrayLength + p.columns.length := by
  obtain ⟨live, filters, found, hlive, hfilters, hfound, hconditions⟩ := h.conditions
  rw [hconditions, Predicate.paramsList_append, Predicate.paramsList_append, hlive.params_eq_nil,
    List.nil_append, List.length_append, h.columns]
  exact Nat.add_le_add hfilters.length_params_le hfound.length_params_le

/-- **What a request binds is bounded by its configuration.**  For either backend, both statements
have the clause of one filter, with no more conditions than it may have operations; and the values
of a statement are bounded by those of so many operations, and one more for each column.  So no
request asks more of a backend than it takes, if the limits and the allow-list do not. -/
theorem planFor_capacity {b : Backend} {w : WrittenPlan} (h : planFor b clock l t a o = .ok w) :
    (∃ live filters found rest,
      Plan.LivePart t o.excludeDeleted live ∧
      Plan.FilterPart clock l t a o.filter filters ∧
      Plan.SearchPart t a o.search found ∧
      filters.length ≤ l.maxFilterOperations ∧
      w.select.text =
        "SELECT " ++ ", ".intercalate (w.columns.map fun c => Piece.quoted c.column.name) ++
          " FROM " ++ Piece.quoted t.name ++ Plan.clauseText b (live ++ filters ++ found) ++ rest ∧
      w.count.text =
        "SELECT COUNT(*) FROM " ++ Piece.quoted t.name ++
          Plan.clauseText b (live ++ filters ++ found)) ∧
    w.select.params.length ≤ l.maxFilterOperations * max 2 l.maxArrayLength + w.columns.length ∧
    w.count.params.length ≤ l.maxFilterOperations * max 2 l.maxArrayLength + w.columns.length ∧
    ∀ capacity, l.maxFilterOperations * max 2 l.maxArrayLength + a.names.length ≤ capacity →
      w.select.params.length ≤ capacity ∧ w.count.params.length ≤ capacity := by
  obtain ⟨p, hplan, rfl⟩ := map_eq_ok_iff.mp h
  have hp := plan_eq_ok_iff.mp hplan
  obtain ⟨live, filters, found, hlive, hfilters, hfound, hconditions⟩ := hp.conditions
  have hvalues : (Predicate.paramsList p.conditions).length ≤
      l.maxFilterOperations * max 2 l.maxArrayLength + p.columns.length := hp.length_params_le
  refine ⟨⟨live, filters, found, Plan.orderText p.order ++ p.windowText, hlive, hfilters, hfound,
    hfilters.length_le, ?_, ?_⟩, hvalues, hvalues, fun capacity hcapacity => ?_⟩
  · show p.select.text b = _
    rw [Plan.text_select, Piece.text_append, Plan.text_heading, Plan.text_source, hp.table,
      hconditions]
    simp only [String.append_assoc, Plan.written]
  · show p.count.text b = _
    rw [Plan.text_count, hp.table, hconditions]
  · have hcolumns : p.columns.length ≤ a.names.length := by
      rw [hp.columns]
      exact length_visibleColumns_le t a
    have hle := Nat.le_trans (Nat.le_trans hvalues (Nat.add_le_add_left hcolumns _)) hcapacity
    exact ⟨hle, hle⟩

/-- People of an age in a range, by a name to search for. -/
def agedByName : QueryOptions where
  search := some "ann"
  filter := some (.obj [("age", .obj [("isBetween", .str "18,65")])])

/-- A range and a search in two columns bind all the values that one operation may bind there. -/
theorem planFor_capacity_attained :
    ∃ w, planFor .postgres ⟨0, .utc⟩ { maxFilterOperations := 1, maxArrayLength := 2 } people
        peopleAllowed agedByName = .ok w ∧
      w.select.params = [.int 18, .int 65, .text "%ann%", .text "%ann%"] ∧
      1 * max 2 2 + 2 ≤ 4 ∧ w.select.params.length ≤ 4 ∧ w.count.params.length ≤ 4 := by
  have h : planFor .postgres ⟨0, .utc⟩ { maxFilterOperations := 1, maxArrayLength := 2 } people
      peopleAllowed agedByName = .ok _ := rfl
  obtain ⟨-, -, -, hcapacity⟩ := planFor_capacity h
  have hlimits : 1 * max 2 2 + 2 ≤ 4 := by decide
  exact ⟨_, h, by decide +kernel, hlimits, hcapacity 4 hlimits⟩

end ResourceQuery
