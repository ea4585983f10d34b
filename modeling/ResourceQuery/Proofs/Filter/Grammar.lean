import Mathlib.Data.List.Forall2
import ResourceQuery.Filter.Grammar

/-!
# Filter — the operations of a document and the conditions read from them

`written` lists the operations of a filter as the document writes them: each field with each of its
operators, in order.  `Written.Reads` says which condition one of them is read as.

* `findings_eq_ok_iff`: the findings of a document are conditions throughout exactly if every field
  is an identifier with an object of operators, and every operation is read as a condition.
* `validate_eq_ok_iff`: these conditions, one for each operation written and in the same order, are
  what an accepted filter comes to.
-/

namespace ResourceQuery.Filter

/-- An operation as a filter writes it. -/
structure Written where
  field : String
  /-- The name of the operator. -/
  name : String
  value : Json

/-- The operations of one field. -/
def writtenOn (m : String × Json) : List Written :=
  match m.2 with
  | .obj ops => ops.map fun o => ⟨m.1, o.1, o.2⟩
  | _ => []

/-- The operations of a filter, in the order of the document. -/
def written (fields : List (String × Json)) : List Written :=
  fields.flatMap writtenOn

/-- The field is an identifier with an object of operators. -/
def WellFormed (m : String × Json) : Prop :=
  Text.isIdentifier m.1 = true ∧ ∃ ops, m.2 = .obj ops

/-- `c` is what the operation is read as: the same field, the operator of the name, and the value
read for that operator, within the limits. -/
structure Written.Reads (l : Limits) (w : Written) (c : Condition) : Prop where
  field : c.field = w.field
  operator : Operator.ofName? w.name = some c.operator
  value : Value.ofJson c.operator w.value = .ok c.value
  within : checkValue l c.operator c.value = .ok ()

/-- What an operation as written comes to. -/
def Written.finding (l : Limits) (w : Written) : Finding :=
  operationFinding l w.field (w.name, w.value)

variable {l : Limits}

theorem mem_written {fields : List (String × Json)} {field : String} {ops : List (String × Json)}
    {o : String × Json} (hm : (field, Json.obj ops) ∈ fields) (ho : o ∈ ops) :
    ⟨field, o.1, o.2⟩ ∈ written fields :=
  List.mem_flatMap.mpr ⟨_, hm, List.mem_map.mpr ⟨o, ho, rfl⟩⟩

/-! ### One operation -/

theorem readOperation_eq_ok_iff {name : String} {j : Json} {op : Operator} {v : Value} :
    readOperation l name j = .ok (op, v) ↔
      Operator.ofName? name = some op ∧ Value.ofJson op j = .ok v ∧ checkValue l op v = .ok () := by
  constructor
  · intro h
    rw [readOperation] at h
    split at h
    · cases h
    · rename_i op' hop
      split at h
      · cases h
      · rename_i v' hv
        split at h
        · cases h
        · rename_i hc
          cases h
          exact ⟨hop, hv, hc⟩
  · rintro ⟨hop, hv, hc⟩
    rw [readOperation, hop]
    dsimp only
    rw [hv]
    dsimp only
    rw [hc]

/-- An operation is read as a condition exactly if its finding is that condition. -/
theorem finding_eq_ok_iff {w : Written} {c : Condition} :
    w.finding l = .ok c ↔ w.Reads l c := by
  rw [Written.finding, operationFinding]
  cases h : readOperation l w.name w.value with
  | error e =>
      refine ⟨nofun, fun hr => ?_⟩
      have hok := readOperation_eq_ok_iff.mpr ⟨hr.operator, hr.value, hr.within⟩
      rw [h] at hok
      cases hok
  | ok r =>
      obtain ⟨op, v⟩ := r
      obtain ⟨hop, hv, hc⟩ := readOperation_eq_ok_iff.mp h
      constructor
      · intro hw
        cases hw
        exact ⟨rfl, hop, hv, hc⟩
      · rintro ⟨hf, hop', hv', -⟩
        -- both the operator and its value are functions of what is written
        rw [hop] at hop'
        cases hop'
        rw [hv] at hv'
        cases hv'
        rw [← hf]

/-! ### A whole document -/

theorem fieldFindings_of_wellFormed {m : String × Json} (h : WellFormed m) :
    fieldFindings l m = (writtenOn m).map (Written.finding l) := by
  obtain ⟨field, j⟩ := m
  obtain ⟨hid, ops, rfl⟩ := h
  rw [fieldFindings, if_neg (by simp [hid]), writtenOn, List.map_map]
  rfl

theorem wellFormed_of_fieldFindings {m : String × Json}
    (h : ∀ f ∈ fieldFindings l m, ∃ c, f = .ok c) : WellFormed m := by
  obtain ⟨field, j⟩ := m
  by_cases hid : Text.isIdentifier field = true
  · refine ⟨hid, ?_⟩
    cases j with
    | obj ops => exact ⟨ops, rfl⟩
    | null | bool _ | int _ | double _ | str _ | arr _ =>
        rw [fieldFindings, if_neg (by simp [hid])] at h
        obtain ⟨c, hc⟩ := h _ List.mem_cons_self
        cases hc
  · rw [fieldFindings, if_pos (by simp [hid])] at h
    obtain ⟨c, hc⟩ := h _ List.mem_cons_self
    cases hc

/-- Fields with the same numbers of operations have the same number in all. -/
theorem operations_congr {fields fields' : List (String × Json)}
    (h : List.Forall₂ (fun m m' => operationCount m.2 = operationCount m'.2) fields fields') :
    operations fields = operations fields' := by
  induction h with
  | nil => rfl
  | cons hm _ ih =>
      rw [operations] at ih
      simp only [operations, List.foldr_cons, hm, ih]

theorem findings_of_wellFormed {fields : List (String × Json)} (h : ∀ m ∈ fields, WellFormed m) :
    findings l fields = (written fields).map (Written.finding l) := by
  induction fields with
  | nil => rfl
  | cons m ms ih =>
      have hms := ih fun n hn => h n (List.mem_cons_of_mem m hn)
      rw [findings] at hms
      rw [findings, List.flatMap_cons, hms, fieldFindings_of_wellFormed (h m List.mem_cons_self),
        ← List.map_append]
      rfl

/-- **The findings of a document are conditions throughout exactly if every field is well formed and
every operation is read as a condition.** -/
theorem findings_eq_ok_iff {fields : List (String × Json)} {cs : List Condition} :
    findings l fields = cs.map .ok ↔
      (∀ m ∈ fields, WellFormed m) ∧ List.Forall₂ (Written.Reads l) (written fields) cs := by
  have hread : (∀ m ∈ fields, WellFormed m) →
      (findings l fields = cs.map .ok ↔ List.Forall₂ (Written.Reads l) (written fields) cs) := by
    intro hw
    rw [findings_of_wellFormed hw, ← List.forall₂_eq_eq_eq, List.forall₂_map_left_iff,
      List.forall₂_map_right_iff]
    constructor
    · intro h
      exact h.imp fun _ _ => finding_eq_ok_iff.mp
    · intro h
      exact h.imp fun _ _ => finding_eq_ok_iff.mpr
  constructor
  · intro h
    have hw : ∀ m ∈ fields, WellFormed m := by
      intro m hm
      have hok : ∀ f ∈ fieldFindings l m, ∃ c, f = .ok c := by
        intro f hf
        have hf' : f ∈ cs.map Except.ok := h ▸ List.mem_flatMap.mpr ⟨m, hm, hf⟩
        obtain ⟨c, -, hc⟩ := List.mem_map.mp hf'
        exact ⟨c, hc.symm⟩
      exact wellFormed_of_fieldFindings hok
    exact ⟨hw, (hread hw).mp h⟩
  · rintro ⟨hw, h⟩
    exact (hread hw).mpr h

theorem violations_eq_nil_iff {fs : List Finding} :
    violations fs = [] ↔ fs = (conditions fs).map .ok := by
  induction fs with
  | nil => exact ⟨fun _ => rfl, fun _ => rfl⟩
  | cons f fs ih =>
      cases f with
      | error v =>
          refine ⟨nofun, fun h => ?_⟩
          have hf : Except.error v ∈ (conditions (.error v :: fs)).map Except.ok :=
            h ▸ List.mem_cons_self
          obtain ⟨c, -, hc⟩ := List.mem_map.mp hf
          cases hc
      | ok c =>
          have hcons : conditions (.ok c :: fs) = c :: conditions fs := rfl
          rw [hcons, List.map_cons, List.cons.injEq]
          exact ⟨fun h => ⟨rfl, ih.mp h⟩, fun h => ih.mpr h.2⟩

theorem conditions_map_ok : ∀ cs : List Condition, conditions (cs.map .ok) = cs
  | [] => rfl
  | c :: cs => by
      show c :: conditions (cs.map .ok) = c :: cs
      rw [conditions_map_ok cs]

/-- **An accepted filter comes to one condition for each operation it writes, in the order of the
document.** -/
theorem validate_eq_ok_iff {j : Json} {cs : List Condition} :
    validate l j = .ok cs ↔
      ∃ fields, j = .obj fields ∧ operations fields ≤ l.maxFilterOperations ∧
        (∀ m ∈ fields, WellFormed m) ∧ List.Forall₂ (Written.Reads l) (written fields) cs := by
  cases j with
  | null | bool _ | int _ | double _ | str _ | arr _ => exact ⟨nofun, nofun⟩
  | obj fields =>
      rw [validate]
      by_cases hmany : l.maxFilterOperations < operations fields
      · rw [if_pos hmany]
        refine ⟨nofun, ?_⟩
        rintro ⟨fields', hj, hle, -⟩
        cases hj
        exact absurd hmany (Nat.not_lt.mpr hle)
      · rw [if_neg hmany]
        constructor
        · intro h
          dsimp only at h
          -- without violations, the findings are the conditions
          by_cases hv : (violations (findings l fields)).isEmpty = true
          · rw [if_pos hv] at h
            have hok := violations_eq_nil_iff.mp (List.isEmpty_iff.mp hv)
            rw [Except.ok.inj h] at hok
            obtain ⟨hw, hr⟩ := findings_eq_ok_iff.mp hok
            exact ⟨fields, rfl, Nat.not_lt.mp hmany, hw, hr⟩
          · rw [if_neg hv] at h
            cases h
        · rintro ⟨fields', hj, -, hw, hr⟩
          cases hj
          have hok := findings_eq_ok_iff.mpr ⟨hw, hr⟩
          have hnone : violations (findings l fields) = [] := by
            rw [violations_eq_nil_iff, hok, conditions_map_ok]
          dsimp only
          rw [hnone, hok, conditions_map_ok]
          rfl

end ResourceQuery.Filter
