import ResourceQuery.Proofs.Store.Binding

/-!
# Query — a predicate is well typed

* `Operator.Gives`: the predicates that an operator with a value may give on a column.  Their form
  is the operator's, and what they bind suits the column.
* `predicate_gives`: what is made of an operator, a column and a value is such a predicate.
* `compile_outcome`: so a condition on a visible field comes to such a predicate, to nothing, or to
  an error about its value.
-/

namespace ResourceQuery

/-- The predicates that an operator with a value may give on a column. -/
inductive Operator.Gives (col : Column) (v : Value) : Operator → Predicate → Prop where
  | compare {c : Comparison} {x : Scalar} {w : SqlValue} (first : v.first? = some x)
      (given : x ≠ .null) (suits : w.suits col.type = true) :
      Gives col v (.compare c) (.compare col c w)
  /-- Only equality and its negation ask for nulls. -/
  | null (first : v.first? = some .null) : Gives col v (.compare .eq) (.isNull col false)
  | notNull (first : v.first? = some .null) : Gives col v (.compare .ne) (.isNull col true)
  | contains {negated : Bool} {x : Scalar} {s : String} (first : v.first? = some x)
      (text : x.text? = some s) :
      Gives col v (.contains negated) (.like col (Text.containsPattern s) negated)
  | member {negated : Bool} {ws : List SqlValue} (nonempty : ws ≠ [])
      (suits : ∀ w ∈ ws, w.suits col.type = true) :
      Gives col v (.member negated) (.inList col ws negated)
  | empty {negated : Bool} : Gives col v (.empty negated) (.isNull col negated)
  | between {low high : SqlValue} (ordered : col.type ≠ .text ∧ col.type ≠ .boolean)
      (lower : low.suits col.type = true) (upper : high.suits col.type = true) :
      Gives col v .between (.between col low high)
  | relative {low high : SqlValue} (ordered : col.type ≠ .boolean)
      (lower : low.suits col.type = true) (upper : high.suits col.type = true) :
      Gives col v .relative (.between col low high)

namespace Condition

variable {clock : Clock} {col : Column} {v : Value} {p : Predicate}

/-- What is bound for a column suits it. -/
theorem bind_suits {type : ColumnType} {x : Scalar} {w : SqlValue} (h : bind type x = .ok w) :
    w.suits type = true :=
  (bind?_suits (bind_ok_iff.mp h)).1

theorem compare_gives {c : Comparison} {x : Scalar} (first : v.first? = some x)
    (h : compare col c x = .ok p) : (Operator.compare c).Gives col v p := by
  cases x with
  | null =>
      cases c with
      | eq => cases h; exact .null first
      | ne => cases h; exact .notNull first
      | gt | lt | gte | lte => cases h
  | str _ | int _ _ | float _ _ | bool _ _ =>
      obtain ⟨w, hw, hp⟩ := bind_eq_ok_iff.mp h
      cases hp
      exact .compare first nofun (bind_suits hw)

theorem contains_gives {negated : Bool} {x : Scalar} (first : v.first? = some x)
    (h : contains col negated x = .ok p) : (Operator.contains negated).Gives col v p := by
  rw [contains] at h
  split at h
  · rename_i s hs
    cases h
    exact .contains first hs
  · cases h

/-- An element of a set is bound as any other value, unless it is null. -/
theorem bind_of_bindElement {type : ColumnType} {x : Scalar} {w : SqlValue}
    (h : bindElement type x = .ok w) : bind type x = .ok w := by
  cases x with
  | null => cases h
  | str _ | int _ _ | float _ _ | bool _ _ => exact h

theorem member_gives {negated : Bool} {xs : List Scalar} (nonempty : xs ≠ [])
    (h : member col negated xs = .ok p) : (Operator.member negated).Gives col v p := by
  obtain ⟨ws, hws, hp⟩ := bind_eq_ok_iff.mp h
  cases hp
  have heach := mapM_eq_ok_iff.mp hws
  refine .member ?_ fun w hw => ?_
  · rintro rfl
    exact nonempty (List.forall₂_nil_right_iff.mp heach)
  · obtain ⟨x, -, hx⟩ := exists_of_mem_right heach hw
    exact bind_suits (bind_of_bindElement hx)

theorem between_gives (h : between col v = .ok p) : Operator.between.Gives col v p := by
  unfold between at h
  split at h
  · cases h
  · rename_i htype
    split at h
    · split at h
      · cases h
      · obtain ⟨low, hlow, h⟩ := bind_eq_ok_iff.mp h
        obtain ⟨high, hhigh, h⟩ := bind_eq_ok_iff.mp h
        cases h
        exact .between (not_or.mp htype) (bind_suits hlow) (bind_suits hhigh)
    · cases h

theorem relative_gives (h : relative clock col v = .ok p) : Operator.relative.Gives col v p := by
  obtain ⟨_, _, _, _, _, _, -, -, -, hlow, hhigh, rfl⟩ := relative_eq_ok_iff.mp h
  refine .relative (fun htype => ?_) (bindInstant_suits hlow) (bindInstant_suits hhigh)
  rw [htype] at hlow
  cases hlow

/-- **What an operator gives on a column is well typed.** -/
theorem predicate_gives {op : Operator} (h : predicate clock col op v = .ok (some p)) :
    op.Gives col v p := by
  cases predicate_makes h with
  | compare first hp => exact compare_gives first hp
  | contains first hp => exact contains_gives first hp
  | member nonempty hp => exact member_gives nonempty hp
  | empty => exact .empty
  | between hp => exact between_gives hp
  | relative hp => exact relative_gives hp

/-- What a condition comes to: the allow-list keeps its field back, or the table has none such; or
else it is left out, or its value is refused, or it becomes a predicate on the field's column that
its operator gives. -/
inductive Outcome (t : Table) (a : AllowList) (c : Condition) :
    Except QueryError (Option Predicate) → Prop where
  | notAllowed (kept : a.contains c.field = false) :
      Outcome t a c (.error (.fieldNotAllowed c.field))
  | notFound (allowed : a.contains c.field = true) (absent : t.column? c.field = none) :
      Outcome t a c (.error (.fieldNotFound c.field))
  | skipped {col : Column} (visible : Visible t a c.field col)
      (skips : c.operator.skips c.value = true) : Outcome t a c (.ok none)
  | refused {col : Column} {fault : ValueFault} (visible : Visible t a c.field col) :
      Outcome t a c (.error (.invalidValue c.field c.operator fault))
  | compiled {col : Column} {p : Predicate} (visible : Visible t a c.field col)
      (gives : c.operator.Gives col c.value p) : Outcome t a c (.ok (some p))

theorem Outcome.unresolved {t : Table} {a : AllowList} {c : Condition} {e : QueryError}
    (h : resolve t a c.field = .error e) : c.Outcome t a (.error e) := by
  rw [resolve] at h
  split at h
  · rename_i hkept
    cases h
    exact .notAllowed ((Bool.not_eq_true' _).mp hkept)
  · rename_i hallowed
    split at h
    · cases h
    · rename_i habsent
      cases h
      exact .notFound ((Bool.not_eq_false' _).mp (Bool.eq_false_iff.mpr hallowed)) habsent

/-- **A condition is compiled to a well-typed predicate on its field's column, or not at all.**  A
condition on a visible field that is not compiled is refused for its value, under the name of its
field and its operator. -/
theorem compile_outcome (clock : Clock) (t : Table) (a : AllowList) (c : Condition) :
    c.Outcome t a (c.compile clock t a) := by
  cases h : c.compile clock t a with
  | ok r =>
      obtain ⟨col, visible, hp⟩ := compile_eq_ok_iff.mp h
      cases r with
      | none => exact .skipped visible ((compile_eq_none_iff h).mp rfl)
      | some p => exact .compiled visible (predicate_gives hp)
  | error e =>
      rw [compile] at h
      split at h
      · rename_i e' he
        cases h
        exact .unresolved he
      · rename_i col hcol
        have visible := resolve_eq_ok_iff.mp hcol
        cases hp : predicate clock col c.operator c.value with
        | error fault =>
            rw [hp] at h
            cases h
            exact .refused visible
        | ok r =>
            rw [hp] at h
            cases h

end Condition
end ResourceQuery
