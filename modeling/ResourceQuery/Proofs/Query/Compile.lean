import ResourceQuery.Proofs.Sql.Form
import ResourceQuery.Proofs.Traversal
import ResourceQuery.Query.Compile

/-!
# Query — what a condition is compiled to

* `resolve_eq_ok_iff`: a field is resolved exactly if the allow-list admits it and the table
  declares it (`Visible`), and then to the column declared.
* `compile_eq_ok_iff`: a condition compiles exactly if its field is resolved and its value suits.
* `compile_eq_none_iff`: it is left out exactly where its operator skips the value.
* `compile_refused`: a condition that does not compile is refused for its field or for its value
  (`Condition.Refused`).
* `predicate_makes`: what an operator makes of a value, step by step (`Condition.Makes`).  A relative
  date makes a range of the two instants it is read as (`relative_eq_ok_iff`).
* `predicate_form`: the form of the predicate, and whether there is one at all, are told by the
  column, the operator and the `Shape` of the value: whether it is a list, how long, and where its
  nulls are.
-/

namespace ResourceQuery

/-! ### Visible fields -/

/-- The allow-list admits the field, and the table declares it with this column. -/
def Visible (t : Table) (a : AllowList) (field : String) (c : Column) : Prop :=
  a.contains field = true ∧ t.column? field = some c

theorem resolve_eq_ok_iff {t : Table} {a : AllowList} {field : String} {c : Column} :
    resolve t a field = .ok c ↔ Visible t a field c := by
  rw [resolve, Visible]
  by_cases ha : a.contains field = true
  · rw [if_neg (by simp [ha])]
    cases hc : t.column? field with
    | none => exact ⟨nofun, fun h => absurd h.2 nofun⟩
    | some d =>
        constructor
        · intro h
          exact ⟨ha, congrArg some (Except.ok.inj h)⟩
        · rintro ⟨-, h⟩
          exact congrArg Except.ok (Option.some.inj h)
  · rw [if_pos (by simp [ha])]
    exact ⟨nofun, fun h => absurd h.1 ha⟩

theorem mem_visibleColumns {t : Table} {a : AllowList} {p : Projected} :
    p ∈ visibleColumns t a ↔ Visible t a p.field p.column := by
  rw [visibleColumns, List.mem_filterMap, Visible, AllowList.contains, List.contains_iff_mem]
  constructor
  · rintro ⟨field, hf, h⟩
    obtain ⟨c, hc, rfl⟩ := Option.map_eq_some_iff.mp h
    exact ⟨hf, hc⟩
  · rintro ⟨hf, hc⟩
    exact ⟨p.field, hf, by rw [hc]; rfl⟩

/-! ### The shape of a value -/

/-- What is left of a value when only its nulls are told apart from the rest. -/
inductive Shape where
  | single (null : Bool)
  | list (nulls : List Bool)
  deriving DecidableEq, Repr

def Scalar.isNull : Scalar → Bool
  | .null => true
  | .str _ | .int _ _ | .float _ _ | .bool _ _ => false

/-- The shape of a value. -/
def Value.shape : Value → Shape
  | .scalar x => .single x.isNull
  | .list xs => .list (xs.map Scalar.isNull)

namespace Shape

/-- Whether the value that an operator on one value takes is null, if there is one. -/
def first? : Shape → Option Bool
  | single null => some null
  | list nulls => nulls.head?

/-- Which elements of a set are null. -/
def elements : Shape → List Bool
  | single true => []
  | single false => [false]
  | list nulls => nulls

end Shape

theorem Value.first?_shape : ∀ v : Value, v.shape.first? = v.first?.map Scalar.isNull
  | .scalar _ => rfl
  | .list _ => List.head?_map

theorem Condition.elements_shape : ∀ v : Value, v.shape.elements = (elements v).map Scalar.isNull
  | .scalar .null | .scalar (.str _) | .scalar (.int _ _) | .scalar (.float _ _) => rfl
  | .scalar (.bool _ _) | .list _ => rfl

/-- The form of the predicate that an operator on a column gives, if it gives one, for values of a
shape. -/
def Operator.form? (col : Column) (s : Shape) : Operator → Option Form
  | .compare c =>
      s.first?.map fun null => if null then .isNull col.name (c == .ne) else .compare col.name c
  | .contains negated => s.first?.map fun _ => .like col.name (col.type != .text) negated
  | .member negated =>
      if s.elements = [] then none else some (.inList col.name s.elements.length negated)
  | .empty negated => some (.isNull col.name negated)
  | .between | .relative => some (.between col.name)

/-- The operator makes nothing of the value: an operator on one value or on a set, of an empty
list, and an operator on a set, of null. -/
def Operator.skips : Operator → Value → Bool
  | .compare _, .list [] | .contains _, .list [] | .member _, .list [] => true
  | .member _, .scalar .null => true
  | _, _ => false

theorem Operator.form?_eq_none_iff {col : Column} {op : Operator} {v : Value} :
    op.form? col v.shape = none ↔ op.skips v = true := by
  cases op with
  | compare c | contains negated =>
      rw [form?, Option.map_eq_none_iff, Value.first?_shape, Option.map_eq_none_iff]
      rcases v with x | _ | ⟨x, xs⟩
      · exact ⟨nofun, nofun⟩
      · exact ⟨fun _ => rfl, fun _ => rfl⟩
      · exact ⟨nofun, nofun⟩
  | member negated =>
      have hif : ∀ {p : Prop} [Decidable p] {f : Form},
          (if p then none else some f) = none ↔ p := by
        intro p _ f
        split
        · exact iff_of_true rfl ‹p›
        · exact iff_of_false nofun ‹¬ p›
      rw [form?, hif]
      rcases v with (_ | _ | _ | _ | _) | _ | ⟨x, xs⟩
      case scalar.null | list.nil => exact ⟨fun _ => rfl, fun _ => rfl⟩
      all_goals exact ⟨nofun, nofun⟩
  | empty negated | between | relative => exact ⟨nofun, nofun⟩

/-- The columns of such a form are the column itself. -/
theorem Operator.columns_form? {col : Column} {s : Shape} {op : Operator} {f : Form}
    (h : op.form? col s = some f) : f.columns = [col.name] := by
  cases op with
  | compare c =>
      obtain ⟨null, -, rfl⟩ := Option.map_eq_some_iff.mp h
      cases null <;> rfl
  | contains negated =>
      obtain ⟨null, -, rfl⟩ := Option.map_eq_some_iff.mp h
      rfl
  | member negated =>
      rw [form?] at h
      split at h
      · cases h
      · cases h; rfl
  | empty negated => cases h; rfl
  | between => cases h; rfl
  | relative => cases h; rfl

namespace Condition

variable {clock : Clock} {col : Column}

/-- A comparison with null asks for a null, and every other one compares. -/
theorem compare_form {c : Comparison} {x : Scalar} {p : Predicate} (h : compare col c x = .ok p) :
    p.form = if x.isNull then .isNull col.name (c == .ne) else .compare col.name c := by
  cases x with
  | null => cases c <;> cases h <;> rfl
  | str _ | int _ _ | float _ _ | bool _ _ =>
      obtain ⟨v, -, hp⟩ := bind_eq_ok_iff.mp h
      cases hp
      rfl

theorem contains_form {negated : Bool} {x : Scalar} {p : Predicate}
    (h : contains col negated x = .ok p) :
    p.form = .like col.name (col.type != .text) negated := by
  rw [contains] at h
  split at h
  · cases h; rfl
  · cases h

theorem member_form {negated : Bool} {xs : List Scalar} {p : Predicate}
    (h : member col negated xs = .ok p) : p.form = .inList col.name xs.length negated := by
  obtain ⟨vs, hvs, hp⟩ := bind_eq_ok_iff.mp h
  cases hp
  rw [Predicate.form, (mapM_eq_ok_iff.mp hvs).length_eq]

theorem between_form {v : Value} {p : Predicate} (h : between col v = .ok p) :
    p.form = .between col.name := by
  unfold between at h
  split at h
  · cases h
  · split at h
    · split at h
      · cases h
      · obtain ⟨low, -, h⟩ := bind_eq_ok_iff.mp h
        obtain ⟨high, -, h⟩ := bind_eq_ok_iff.mp h
        cases h
        rfl
    · cases h

/-- A relative range is compiled from a text that writes it, and the instants its ends start at are
bound for the column. -/
theorem relative_eq_ok_iff {v : Value} {p : Predicate} : relative clock col v = .ok p ↔
    ∃ expr r low high x y, v.first? = some (.str expr) ∧ clock.range? expr = some r ∧
      r.instants? clock.zone = some (low, high) ∧ bindInstant col.type low = .ok x ∧
      bindInstant col.type high = .ok y ∧ p = .between col x y := by
  constructor
  · intro h
    rw [relative] at h
    split at h
    · rename_i expr hfirst
      split at h
      · rename_i low high hends
        obtain ⟨r, hr, hinstants⟩ := Option.bind_eq_some_iff.mp hends
        obtain ⟨x, hx, h⟩ := bind_eq_ok_iff.mp h
        obtain ⟨y, hy, h⟩ := bind_eq_ok_iff.mp h
        cases h
        exact ⟨expr, r, low, high, x, y, hfirst, hr, hinstants, hx, hy, rfl⟩
      · cases h
    · cases h
    · cases h
  · rintro ⟨expr, r, low, high, x, y, hfirst, hr, hinstants, hx, hy, rfl⟩
    have hends : ((clock.range? expr).bind fun r => r.instants? clock.zone) = some (low, high) :=
      Option.bind_eq_some_iff.mpr ⟨r, hr, hinstants⟩
    rw [relative, hfirst]
    dsimp only
    rw [hends]
    exact bind_eq_ok_iff.mpr ⟨x, hx, bind_eq_ok_iff.mpr ⟨y, hy, rfl⟩⟩

theorem relative_form {v : Value} {p : Predicate} (h : relative clock col v = .ok p) :
    p.form = .between col.name := by
  obtain ⟨_, _, _, _, _, _, -, -, -, -, -, rfl⟩ := relative_eq_ok_iff.mp h
  rfl

/-- What an operator makes of a value, step by step: one on one value takes the first, and one on a
set all elements; and neither makes anything where there is none. -/
inductive Makes (clock : Clock) (col : Column) (v : Value) :
    Operator → Option Predicate → Prop where
  | compare {c : Comparison} {x : Scalar} {p : Predicate} (first : v.first? = some x)
      (h : Condition.compare col c x = .ok p) : Makes clock col v (.compare c) (some p)
  | noComparison {c : Comparison} (first : v.first? = none) : Makes clock col v (.compare c) none
  | contains {negated : Bool} {x : Scalar} {p : Predicate} (first : v.first? = some x)
      (h : Condition.contains col negated x = .ok p) :
      Makes clock col v (.contains negated) (some p)
  | noSearch {negated : Bool} (first : v.first? = none) :
      Makes clock col v (.contains negated) none
  | member {negated : Bool} {p : Predicate} (nonempty : elements v ≠ [])
      (h : Condition.member col negated (elements v) = .ok p) :
      Makes clock col v (.member negated) (some p)
  | noElement {negated : Bool} (empty : elements v = []) : Makes clock col v (.member negated) none
  | empty {negated : Bool} : Makes clock col v (.empty negated) (some (.isNull col negated))
  | between {p : Predicate} (h : Condition.between col v = .ok p) :
      Makes clock col v .between (some p)
  | relative {p : Predicate} (h : Condition.relative clock col v = .ok p) :
      Makes clock col v .relative (some p)

/-- **What an operator makes of a value.** -/
theorem predicate_makes {op : Operator} {v : Value} {r : Option Predicate}
    (h : predicate clock col op v = .ok r) : Makes clock col v op r := by
  cases op with
  | compare c =>
      rw [predicate] at h
      split at h
      · obtain ⟨p, hp, rfl⟩ := map_eq_ok_iff.mp h
        exact .compare ‹_› hp
      · cases h
        exact .noComparison ‹_›
  | contains negated =>
      rw [predicate] at h
      split at h
      · obtain ⟨p, hp, rfl⟩ := map_eq_ok_iff.mp h
        exact .contains ‹_› hp
      · cases h
        exact .noSearch ‹_›
  | member negated =>
      rw [predicate] at h
      split at h
      · cases h
        exact .noElement ‹_›
      · rename_i hne
        obtain ⟨p, hp, rfl⟩ := map_eq_ok_iff.mp h
        exact .member hne hp
  | empty negated =>
      cases h
      exact .empty
  | between =>
      obtain ⟨p, hp, rfl⟩ := map_eq_ok_iff.mp h
      exact .between hp
  | relative =>
      obtain ⟨p, hp, rfl⟩ := map_eq_ok_iff.mp h
      exact .relative hp

/-- **What a condition is compiled to, but for the values bound.** -/
theorem predicate_form {op : Operator} {v : Value} {r : Option Predicate}
    (h : predicate clock col op v = .ok r) : r.map Predicate.form = op.form? col v.shape := by
  cases predicate_makes h with
  | compare first hp =>
      rw [Operator.form?, Value.first?_shape, first, Option.map_some, Option.map_some,
        Option.map_some, compare_form hp]
  | contains first hp =>
      rw [Operator.form?, Value.first?_shape, first, Option.map_some, Option.map_some,
        Option.map_some, contains_form hp]
  | noComparison first | noSearch first =>
      rw [Operator.form?, Value.first?_shape, first]
      rfl
  | member nonempty hp =>
      have hne : (elements v).map Scalar.isNull ≠ [] := fun e => nonempty (List.map_eq_nil_iff.mp e)
      rw [Operator.form?, elements_shape, List.length_map, if_neg hne, Option.map_some,
        member_form hp]
  | noElement empty =>
      rw [Operator.form?, elements_shape, empty]
      rfl
  | empty => rfl
  | between hp =>
      rw [Option.map_some, between_form hp]
      rfl
  | relative hp =>
      rw [Option.map_some, relative_form hp]
      rfl

theorem compile_eq_ok_iff {t : Table} {a : AllowList} {c : Condition} {r : Option Predicate} :
    c.compile clock t a = .ok r ↔
      ∃ col, Visible t a c.field col ∧ predicate clock col c.operator c.value = .ok r := by
  rw [compile]
  cases hcol : resolve t a c.field with
  | error e =>
      refine ⟨nofun, ?_⟩
      rintro ⟨col, hv, -⟩
      rw [resolve_eq_ok_iff.mpr hv] at hcol
      cases hcol
  | ok col =>
      dsimp only
      rw [mapError_eq_ok_iff]
      constructor
      · intro h
        exact ⟨col, resolve_eq_ok_iff.mp hcol, h⟩
      · rintro ⟨col', hv, h⟩
        rw [resolve_eq_ok_iff.mpr hv] at hcol
        cases hcol
        exact h

/-- The error is about the condition: its field cannot be resolved, or its value does not suit. -/
inductive Refused (c : Condition) : QueryError → Prop where
  | notAllowed : c.Refused (.fieldNotAllowed c.field)
  | notFound : c.Refused (.fieldNotFound c.field)
  | unsuited (fault : ValueFault) : c.Refused (.invalidValue c.field c.operator fault)

theorem resolve_refused (t : Table) (a : AllowList) (c : Condition) :
    FailsOnly c.Refused (resolve t a c.field) := by
  rw [resolve]
  split
  · exact FailsOnly.error_iff.mpr .notAllowed
  · split
    · exact FailsOnly.ok _
    · exact FailsOnly.error_iff.mpr .notFound

/-- **A condition that does not compile is refused for its own field or value.** -/
theorem compile_refused (clock : Clock) (t : Table) (a : AllowList) (c : Condition) :
    FailsOnly c.Refused (c.compile clock t a) := by
  rw [compile]
  cases hcol : resolve t a c.field with
  | error e => exact FailsOnly.error_iff.mpr (resolve_refused t a c e hcol)
  | ok col =>
      have hany : FailsOnly (fun _ => True) (predicate clock col c.operator c.value) :=
        fun _ _ => trivial
      exact hany.mapError fun fault _ => .unsuited fault

/-- A condition that compiles is left out exactly where its operator skips its value. -/
theorem compile_eq_none_iff {t : Table} {a : AllowList} {c : Condition} {r : Option Predicate}
    (h : c.compile clock t a = .ok r) : r = none ↔ c.operator.skips c.value = true := by
  obtain ⟨col, -, hp⟩ := compile_eq_ok_iff.mp h
  rw [← @Operator.form?_eq_none_iff col, ← predicate_form hp, Option.map_eq_none_iff]

end Condition

end ResourceQuery
