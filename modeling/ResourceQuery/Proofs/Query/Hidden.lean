import ResourceQuery.Proofs.Query.Plan

/-!
# Query — hidden fields

Two tables that differ only in fields the allow-list does not have (`Table.Agree`) are the same to a
caller.

* `Agree.insert`: such are a table and the same table with one more hidden field, at any place.
* `plan_eq_of_agree`: every request is planned alike on both, or refused in the same words.

Each look-up in a table is gated by the allow-list, and there are three: `resolve` for conditions,
`visibleColumns` for the projection and the search, and a look-up of its own for the order.  The
last looks into the table first, but tells no more than the others.
-/

namespace ResourceQuery

/-- The tables agree on all that the allow-list has. -/
structure Table.Agree (a : AllowList) (t t' : Table) : Prop where
  name : t.name = t'.name
  deletedAt : t.deletedAt = t'.deletedAt
  column : ∀ field, a.contains field = true → t.column? field = t'.column? field

variable {clock : Clock} {l : Limits} {t t' : Table} {a : AllowList} {o : QueryOptions}

namespace Table.Agree

/-- A hidden field makes no difference. -/
theorem insert {name field : String} {deletedAt : Option String} {c : Column}
    (before after : List (String × Column)) (h : a.contains field = false) :
    Agree a ⟨name, before ++ after, deletedAt⟩
      ⟨name, before ++ (field, c) :: after, deletedAt⟩ := by
  refine ⟨rfl, rfl, fun asked ha => ?_⟩
  have hne : (asked == field) = false := by
    rw [beq_eq_false_iff_ne]
    rintro rfl
    rw [h] at ha
    cases ha
  simp only [Table.column?, List.lookup_append, List.lookup_cons, hne]

theorem resolve_eq (h : Agree a t t') (field : String) :
    resolve t a field = resolve t' a field := by
  rw [resolve, resolve]
  by_cases ha : a.contains field = true
  · rw [h.column field ha]
  · -- neither table is looked into
    rw [if_pos (by simp [ha]), if_pos (by simp [ha])]

theorem compile_eq (h : Agree a t t') (c : Condition) :
    c.compile clock t a = c.compile clock t' a := by
  rw [Condition.compile, Condition.compile, h.resolve_eq]

theorem filterConditions_eq (h : Agree a t t') :
    filterConditions clock l t a o = filterConditions clock l t' a o := by
  have hcompile : Condition.compile clock t a = Condition.compile clock t' a :=
    funext h.compile_eq
  rw [filterConditions, filterConditions, hcompile]

theorem visibleColumns_eq (h : Agree a t t') : visibleColumns t a = visibleColumns t' a := by
  refine List.filterMap_congr fun field hf => ?_
  rw [h.column field (List.contains_iff_mem.mpr hf)]

theorem project_eq (h : Agree a t t') : project t a o = project t' a o := by
  rw [project, project, h.visibleColumns_eq]

theorem searchConditions_eq (h : Agree a t t') :
    searchConditions t a o = searchConditions t' a o := by
  have hsearch : search? t a = search? t' a := by
    funext term
    rw [search?, search?, h.visibleColumns_eq]
  rw [searchConditions, searchConditions, hsearch]

theorem liveness_eq (h : Agree a t t') : liveness t o = liveness t' o := by
  rw [liveness, liveness, h.deletedAt]

/-- A key that is not allowed is refused, whether the table has it or not. -/
theorem sortColumn_of_not_allowed {key : SortKey} (hkey : o.sort = some key)
    (ha : ¬ a.contains key.field = true) :
    sortColumn t a o = .error (.invalidSortField key.field) := by
  rw [sortColumn, hkey]
  dsimp only
  split
  · exact if_neg ha
  · rfl

theorem sortColumn_eq (h : Agree a t t') : sortColumn t a o = sortColumn t' a o := by
  cases hkey : o.sort with
  | none => rw [sortColumn, sortColumn, hkey]
  | some key =>
      -- the table is looked into first, so the gate has to be found behind it
      by_cases ha : a.contains key.field = true
      · rw [sortColumn, sortColumn, hkey]
        dsimp only
        rw [h.column key.field ha]
      · rw [sortColumn_of_not_allowed hkey ha, sortColumn_of_not_allowed hkey ha]

end Table.Agree

/-- **Hidden fields are not observed**: on tables that agree on all allowed fields, every request
comes to the same plan or to the same refusal. -/
theorem plan_eq_of_agree (h : Table.Agree a t t') : plan clock l t a o = plan clock l t' a o := by
  have hpage : planPage clock l t a o = planPage clock l t' a o := by
    funext limit
    rw [planPage, planPage, h.filterConditions_eq, h.project_eq, h.sortColumn_eq, h.name,
      h.liveness_eq, h.searchConditions_eq]
  rw [plan, plan, hpage]

/-- People without their numbers. -/
def peopleWithoutSsn : Table :=
  { people with fields := [("name", ⟨"full_name", .text⟩), ("age", ⟨"age", .integer⟩)] }

/-- A request by the numbers of people. -/
def bySsn : QueryOptions where
  filter := some (.obj [("ssn", .obj [("matches", .str "07")])])

theorem plan_eq_of_agree_people :
    peopleWithoutSsn.column? "ssn" ≠ people.column? "ssn" ∧
      Table.Agree peopleAllowed peopleWithoutSsn people ∧
      plan ⟨0, .utc⟩ {} peopleWithoutSsn peopleAllowed bySsn =
        plan ⟨0, .utc⟩ {} people peopleAllowed bySsn ∧
      plan ⟨0, .utc⟩ {} people peopleAllowed bySsn = .error (.query (.fieldNotAllowed "ssn")) := by
  have hssn : peopleAllowed.contains "ssn" = false := rfl
  have h : Table.Agree peopleAllowed peopleWithoutSsn people :=
    .insert peopleWithoutSsn.fields [] hssn
  exact ⟨by decide, h, plan_eq_of_agree h, rfl⟩

end ResourceQuery
