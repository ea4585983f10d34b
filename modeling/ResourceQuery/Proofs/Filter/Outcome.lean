import ResourceQuery.Proofs.Filter.Grammar
import ResourceQuery.Proofs.Traversal

/-!
# Filter — what a document comes to

Every part of a filter is answered for: a field that is not well formed by one violation, and each
operation of the other fields by one violation or one condition (`Field.ComesTo`).

* `Value.ofJson_eq_error_iff`, `checkValue_eq_error_iff`, `checkValue_eq_ok_iff`: which documents are
  no values, and which values are over a limit or within all of them.
* `finding_eq_iff`, `fieldFindings_eq_iff`: what an operation and what a field comes to.
* `operations_eq_iff`: how many operations are counted (`Counts`).
* `validate_eq_iff`: a filter comes to its conditions if there is no violation, and else to its
  violations, both in the order of the document.
-/

namespace ResourceQuery

/-! ### Values -/

/-- A document that is no single value. -/
inductive Json.Compound : Json → Unsupported → Prop where
  | array (items : List Json) : Compound (.arr items) .nestedArray
  | object (members : List (String × Json)) : Compound (.obj members) .object

/-- A document that is no value of an operation: an object, or an array with an item that is no
single value, of which the first counts. -/
inductive Json.Unfit : Json → Unsupported → Prop where
  | object (members : List (String × Json)) : Unfit (.obj members) .object
  | item {front back : List Json} {j : Json} {u : Unsupported}
      (single : ∀ x ∈ front, ∀ u, ¬ x.Compound u) (compound : j.Compound u) :
      Unfit (.arr (front ++ j :: back)) u

theorem Scalar.ofJson_eq_error_iff {j : Json} {u : Unsupported} :
    Scalar.ofJson j = .error u ↔ j.Compound u := by
  constructor
  · intro h
    cases j with
    | arr items => cases h; exact .array items
    | obj members => cases h; exact .object members
    | null | bool _ | int _ | double _ | str _ => cases h
  · rintro (_ | _) <;> rfl

theorem Scalar.exists_ofJson_iff {j : Json} :
    (∃ x, Scalar.ofJson j = .ok x) ↔ ∀ u, ¬ j.Compound u := by
  simp only [← Scalar.ofJson_eq_error_iff]
  cases Scalar.ofJson j with
  | error u => exact ⟨nofun, fun h => absurd rfl (h u)⟩
  | ok x => exact ⟨fun _ => nofun, fun _ => ⟨x, rfl⟩⟩

/-- **Which documents are no values.** -/
theorem Value.ofJson_eq_error_iff {op : Operator} {j : Json} {u : Unsupported} :
    Value.ofJson op j = .error u ↔ j.Unfit u := by
  cases j with
  | arr items =>
      rw [Value.ofJson, map_eq_error_iff, mapM_eq_error_iff]
      constructor
      · rintro ⟨front, j, back, rfl, hfront, hj⟩
        exact .item (fun x hx => Scalar.exists_ofJson_iff.mp (hfront x hx))
          (Scalar.ofJson_eq_error_iff.mp hj)
      · rintro (_ | ⟨single, compound⟩)
        exact ⟨_, _, _, rfl, fun x hx => Scalar.exists_ofJson_iff.mpr (single x hx),
          Scalar.ofJson_eq_error_iff.mpr compound⟩
  | obj members =>
      constructor
      · intro h
        cases h
        exact .object members
      · rintro ⟨⟩
        rfl
  | str s =>
      rw [Value.ofJson]
      split <;> exact ⟨nofun, nofun⟩
  | null | bool _ | int _ | double _ => exact ⟨nofun, nofun⟩

/-- The single values of a value. -/
def Value.scalars : Value → List Scalar
  | .scalar x => [x]
  | .list xs => xs

namespace Filter

variable {l : Limits}

/-- The value is over a limit: a text or a list that is too long, or a list with such a text. -/
inductive Exceeds (l : Limits) (op : Operator) : Value → Complaint → Prop where
  | text {s : String} (long : l.maxStringLength < s.length) :
      Exceeds l op (.scalar (.str s)) (.longString op l.maxStringLength)
  | list {xs : List Scalar} (long : l.maxArrayLength < xs.length) :
      Exceeds l op (.list xs) (.longArray op l.maxArrayLength)
  | element {xs : List Scalar} {s : String} (short : xs.length ≤ l.maxArrayLength)
      (mem : .str s ∈ xs) (long : l.maxStringLength < s.length) :
      Exceeds l op (.list xs) (.longString op l.maxStringLength)

theorem checkScalar_eq_error_iff {op : Operator} {x : Scalar} {c : Complaint} :
    checkScalar l op x = .error c ↔
      ∃ s, x = .str s ∧ l.maxStringLength < s.length ∧ c = .longString op l.maxStringLength := by
  cases x with
  | str s =>
      rw [checkScalar]
      split
      · rename_i hlong
        constructor
        · intro h
          cases h
          exact ⟨s, rfl, hlong, rfl⟩
        · rintro ⟨_, -, -, rfl⟩
          rfl
      · rename_i hshort
        refine ⟨nofun, ?_⟩
        rintro ⟨_, ⟨⟩, hlong, -⟩
        exact absurd hlong hshort
  | null | int _ _ | float _ _ | bool _ _ => exact ⟨nofun, nofun⟩

/-- The elements of a list are over a limit if one of them is; it is the same for all. -/
theorem forM_checkScalar_eq_error_iff {op : Operator} {xs : List Scalar} {c : Complaint} :
    xs.forM (checkScalar l op) = .error c ↔
      ∃ s, .str s ∈ xs ∧ l.maxStringLength < s.length ∧ c = .longString op l.maxStringLength := by
  induction xs with
  | nil => exact ⟨nofun, nofun⟩
  | cons x xs ih =>
      rw [List.forM]
      cases hx : checkScalar l op x with
      | error c' =>
          obtain ⟨s, rfl, hlong, rfl⟩ := checkScalar_eq_error_iff.mp hx
          constructor
          · intro h
            cases h
            exact ⟨s, List.mem_cons_self, hlong, rfl⟩
          · rintro ⟨-, -, -, rfl⟩
            rfl
      | ok r =>
          refine Iff.trans ih ⟨?_, ?_⟩
          · rintro ⟨s, hs, hlong, hc⟩
            exact ⟨s, List.mem_cons_of_mem x hs, hlong, hc⟩
          · rintro ⟨s, hs, hlong, hc⟩
            rcases List.mem_cons.mp hs with rfl | hs
            · rw [checkScalar_eq_error_iff.mpr ⟨s, rfl, hlong, rfl⟩] at hx
              cases hx
            · exact ⟨s, hs, hlong, hc⟩

/-- **Which values are over a limit.** -/
theorem checkValue_eq_error_iff {op : Operator} {v : Value} {c : Complaint} :
    checkValue l op v = .error c ↔ Exceeds l op v c := by
  cases v with
  | scalar x =>
      rw [checkValue, checkScalar_eq_error_iff]
      constructor
      · rintro ⟨s, rfl, hlong, rfl⟩
        exact .text hlong
      · rintro ⟨hlong⟩
        exact ⟨_, rfl, hlong, rfl⟩
  | list xs =>
      rw [checkValue]
      split
      · rename_i hlong
        constructor
        · intro h
          cases h
          exact .list hlong
        · rintro (_ | _ | ⟨hshort, -, -⟩)
          · rfl
          · exact absurd hlong (Nat.not_lt.mpr hshort)
      · rename_i hshort
        rw [forM_checkScalar_eq_error_iff]
        constructor
        · rintro ⟨s, hs, hlong, rfl⟩
          exact .element (Nat.not_lt.mp hshort) hs hlong
        · rintro (_ | hlong | ⟨-, hs, hlong⟩)
          · exact absurd hlong hshort
          · exact ⟨_, hs, hlong, rfl⟩

/-- The value is within the limits. -/
structure Within (l : Limits) (v : Value) : Prop where
  few : ∀ xs, v = .list xs → xs.length ≤ l.maxArrayLength
  short : ∀ s, .str s ∈ v.scalars → s.length ≤ l.maxStringLength

theorem within_iff {op : Operator} {v : Value} : Within l v ↔ ∀ c, ¬ Exceeds l op v c := by
  constructor
  · rintro ⟨few, short⟩ c (hlong | hlong | ⟨-, mem, hlong⟩)
    · exact absurd hlong (Nat.not_lt.mpr (short _ List.mem_cons_self))
    · exact absurd hlong (Nat.not_lt.mpr (few _ rfl))
    · exact absurd hlong (Nat.not_lt.mpr (short _ mem))
  · intro h
    have few : ∀ xs, v = .list xs → xs.length ≤ l.maxArrayLength := by
      rintro xs rfl
      exact Nat.not_lt.mp fun hlong => h _ (.list hlong)
    refine ⟨few, fun s mem => Nat.not_lt.mp fun hlong => ?_⟩
    cases v with
    | scalar x =>
        obtain rfl := List.mem_singleton.mp mem
        exact h _ (.text hlong)
    | list xs => exact h _ (.element (few xs rfl) mem hlong)

/-- **Which values pass the limits.** -/
theorem checkValue_eq_ok_iff {op : Operator} {v : Value} :
    checkValue l op v = .ok () ↔ Within l v := by
  rw [@within_iff l op]
  simp only [← checkValue_eq_error_iff]
  cases checkValue l op v with
  | ok _ => exact ⟨fun _ _ => nofun, fun _ => rfl⟩
  | error c => exact ⟨nofun, fun h => absurd rfl (h c)⟩

/-! ### Operations -/

/-- What is wrong with an operation: its operator is unknown, its value is none, or that value is
over a limit. -/
inductive Written.Faulty (l : Limits) (w : Written) : Complaint → Prop where
  | unknown (h : Operator.ofName? w.name = none) : w.Faulty l (.unknownOperator w.name)
  | unsupported {op : Operator} {u : Unsupported} (known : Operator.ofName? w.name = some op)
      (unfit : w.value.Unfit u) : w.Faulty l (.unsupported op u)
  | limit {op : Operator} {v : Value} {c : Complaint} (known : Operator.ofName? w.name = some op)
      (value : Value.ofJson op w.value = .ok v) (exceeds : Exceeds l op v c) : w.Faulty l c

/-- An operation comes to one violation, which names its field, or to the condition it is read
as. -/
inductive Written.ComesTo (l : Limits) (w : Written) : Finding → Prop where
  | violation {c : Complaint} (h : w.Faulty l c) : w.ComesTo l (.error ⟨w.field, c⟩)
  | condition {c : Condition} (h : w.Reads l c) : w.ComesTo l (.ok c)

theorem readOperation_eq_error_iff {w : Written} {c : Complaint} :
    readOperation l w.name w.value = .error c ↔ w.Faulty l c := by
  constructor
  · intro h
    rw [readOperation] at h
    split at h
    · rename_i hop
      cases h
      exact .unknown hop
    · rename_i op hop
      split at h
      · rename_i u hu
        cases h
        exact .unsupported hop (Value.ofJson_eq_error_iff.mp hu)
      · rename_i v hv
        split at h
        · rename_i c hc
          cases h
          exact .limit hop hv (checkValue_eq_error_iff.mp hc)
        · cases h
  · intro h
    cases h with
    | unknown hop => rw [readOperation, hop]
    | unsupported known unfit =>
        rw [readOperation, known]
        dsimp only
        rw [Value.ofJson_eq_error_iff.mpr unfit]
    | limit known value exceeds =>
        rw [readOperation, known]
        dsimp only
        rw [value]
        dsimp only
        rw [checkValue_eq_error_iff.mpr exceeds]

/-- **What an operation comes to.** -/
theorem finding_eq_iff {w : Written} {f : Finding} : w.finding l = f ↔ w.ComesTo l f := by
  cases f with
  | ok c =>
      rw [finding_eq_ok_iff]
      constructor
      · exact .condition
      · rintro ⟨⟩
        assumption
  | error v =>
      rw [Written.finding, operationFinding]
      constructor
      · intro h
        split at h
        · rename_i c hc
          cases h
          exact .violation (readOperation_eq_error_iff.mp hc)
        · cases h
      · rintro ⟨hfault⟩
        rw [readOperation_eq_error_iff.mpr hfault]

/-! ### Fields -/

/-- A field that is not well formed comes to one violation, which names it, and every other field
to what its operations come to, one after the other. -/
inductive Field.ComesTo (l : Limits) : String × Json → List Finding → Prop where
  | badName {field : String} {j : Json} (name : Text.isIdentifier field = false) :
      ComesTo l (field, j) [.error ⟨field, .invalidName⟩]
  | noOperators {field : String} {j : Json} (name : Text.isIdentifier field = true)
      (other : ∀ ops, j ≠ .obj ops) : ComesTo l (field, j) [.error ⟨field, .noOperators⟩]
  | operators {field : String} {ops : List (String × Json)} {fs : List Finding}
      (name : Text.isIdentifier field = true)
      (each : List.Forall₂ (fun o => Written.ComesTo l ⟨field, o.1, o.2⟩) ops fs) :
      ComesTo l (field, .obj ops) fs

theorem operationFindings_eq_iff {field : String} {ops : List (String × Json)}
    {fs : List Finding} : ops.map (operationFinding l field) = fs ↔
      List.Forall₂ (fun o => Written.ComesTo l ⟨field, o.1, o.2⟩) ops fs := by
  have hread : ∀ o f, operationFinding l field o = f ↔ Written.ComesTo l ⟨field, o.1, o.2⟩ f :=
    fun o f => finding_eq_iff (w := ⟨field, o.1, o.2⟩)
  rw [← List.forall₂_eq_eq_eq, List.forall₂_map_left_iff]
  simp only [hread]

/-- **What a field comes to.** -/
theorem fieldFindings_eq_iff {m : String × Json} {fs : List Finding} :
    fieldFindings l m = fs ↔ Field.ComesTo l m fs := by
  obtain ⟨field, j⟩ := m
  rw [fieldFindings]
  constructor
  · intro h
    cases hname : Text.isIdentifier field with
    | false =>
        rw [hname] at h
        cases h
        exact .badName hname
    | true =>
        rw [hname] at h
        cases j with
        | obj ops => exact .operators hname (operationFindings_eq_iff.mp h)
        | null | bool _ | int _ | double _ | str _ | arr _ =>
            cases h
            refine .noOperators hname ?_
            rintro ops ⟨⟩
  · intro h
    cases h with
    | badName name => rw [name]; rfl
    | noOperators name other =>
        rw [name]
        cases j with
        | obj ops => exact absurd rfl (other ops)
        | null | bool _ | int _ | double _ | str _ | arr _ => rfl
    | operators name each =>
        rw [name]
        exact operationFindings_eq_iff.mpr each

/-! ### Documents -/

/-- The fields have so many operations; one that is no object of operators counts as one. -/
inductive Counts : List (String × Json) → Nat → Prop where
  | nil : Counts [] 0
  | operators {field : String} {ops : List (String × Json)} {fields : List (String × Json)} {n : Nat}
      (rest : Counts fields n) : Counts ((field, .obj ops) :: fields) (ops.length + n)
  | other {field : String} {j : Json} {fields : List (String × Json)} {n : Nat}
      (other : ∀ ops, j ≠ .obj ops) (rest : Counts fields n) :
      Counts ((field, j) :: fields) (1 + n)

theorem counts_operations : ∀ fields : List (String × Json), Counts fields (operations fields)
  | [] => .nil
  | (_, .obj _) :: fields => .operators (counts_operations fields)
  | (_, .null) :: fields | (_, .bool _) :: fields | (_, .int _) :: fields
  | (_, .double _) :: fields | (_, .str _) :: fields | (_, .arr _) :: fields =>
      .other nofun (counts_operations fields)

/-- **How many operations a filter has.** -/
theorem operations_eq_iff {fields : List (String × Json)} {n : Nat} :
    operations fields = n ↔ Counts fields n := by
  constructor
  · rintro rfl
    exact counts_operations fields
  · intro h
    induction h with
    | nil => rfl
    | operators rest ih => rw [operations, List.foldr_cons, ← operations, ih]; rfl
    | other other rest ih =>
        rw [operations, List.foldr_cons, ← operations, ih, operationCount]
        exact other

/-- What the fields come to are the findings. -/
theorem forall₂_comesTo_iff {fields : List (String × Json)} {outcomes : List (List Finding)} :
    List.Forall₂ (Field.ComesTo l) fields outcomes ↔ fields.map (fieldFindings l) = outcomes := by
  rw [← List.forall₂_eq_eq_eq, List.forall₂_map_left_iff]
  simp only [fieldFindings_eq_iff]

/-- What findings add up to: the conditions if they are nothing else, and else the violations among
them. -/
inductive AddUp (fs : List Finding) : Except (List Violation) (List Condition) → Prop where
  | conditions {cs : List Condition} (all : fs = cs.map .ok) : AddUp fs (.ok cs)
  | violations {vs : List Violation} (nonempty : vs ≠ [])
      (all : (fs.filter fun f => !f.isOk) = vs.map .error) : AddUp fs (.error vs)

theorem filter_eq_violations (fs : List Finding) :
    (fs.filter fun f => !f.isOk) = (violations fs).map .error := by
  induction fs with
  | nil => rfl
  | cons f fs ih =>
      cases f with
      | ok c => exact ih
      | error v => exact congrArg (Except.error v :: ·) ih

/-- **What findings add up to.** -/
theorem gathered_eq_iff {fs : List Finding} {r : Except (List Violation) (List Condition)} :
    (if (violations fs).isEmpty then .ok (conditions fs) else .error (violations fs)) = r ↔
      AddUp fs r := by
  constructor
  · rintro rfl
    split
    · rename_i hnone
      exact .conditions (violations_eq_nil_iff.mp (List.isEmpty_iff.mp hnone))
    · rename_i hsome
      exact .violations (mt List.isEmpty_iff.mpr hsome) (filter_eq_violations fs)
  · intro h
    cases h with
    | conditions all =>
        have hnone : violations fs = [] := by
          rw [violations_eq_nil_iff, all, conditions_map_ok]
        rw [hnone, all, conditions_map_ok]
        rfl
    | violations nonempty all =>
        rename_i vs
        have hvs : violations fs = vs :=
          List.map_injective_iff.mpr (fun _ _ => Except.error.inj)
            ((filter_eq_violations fs).symm.trans all)
        rw [hvs, if_neg (mt List.isEmpty_iff.mp nonempty)]

/-- What a filter comes to: one violation about no field, or what its fields come to, put one after
the other. -/
inductive ComesTo (l : Limits) : Json → Except (List Violation) (List Condition) → Prop where
  | notAnObject {j : Json} (other : ∀ fields, j ≠ .obj fields) :
      ComesTo l j (.error [⟨"", .notAnObject⟩])
  | tooMany {fields : List (String × Json)} {count : Nat} (counted : Counts fields count)
      (many : l.maxFilterOperations < count) :
      ComesTo l (.obj fields) (.error [⟨"", .tooManyOperations count l.maxFilterOperations⟩])
  | fields {fields : List (String × Json)} {count : Nat} {outcomes : List (List Finding)}
      {r : Except (List Violation) (List Condition)} (counted : Counts fields count)
      (few : count ≤ l.maxFilterOperations)
      (each : List.Forall₂ (Field.ComesTo l) fields outcomes)
      (all : AddUp outcomes.flatten r) : ComesTo l (.obj fields) r

/-- **Nothing in a filter is lost or counted twice.**  A document that is no object, or has more
operations than allowed, comes to one violation about no field.  In any other one, each field that
is not well formed comes to one violation that names it, and each operation of the others to one
violation that names its field or to one condition; and the filter comes to all of these conditions
in the order of the document if there is no violation, and else to all of these violations. -/
theorem validate_eq_iff {l : Limits} {j : Json} {r : Except (List Violation) (List Condition)} :
    validate l j = r ↔ ComesTo l j r := by
  constructor
  · rintro rfl
    cases j with
    | null | bool _ | int _ | double _ | str _ | arr _ => exact .notAnObject nofun
    | obj fields =>
        have hcount := operations_eq_iff.mp (rfl : operations fields = operations fields)
        rw [validate]
        split
        · rename_i hmany
          exact .tooMany hcount hmany
        · rename_i hfew
          exact .fields hcount (Nat.not_lt.mp hfew) (forall₂_comesTo_iff.mpr rfl)
            (gathered_eq_iff.mp rfl)
  · intro h
    cases h with
    | notAnObject other =>
        cases j with
        | null | bool _ | int _ | double _ | str _ | arr _ => rfl
        | obj fields => exact absurd rfl (other fields)
    | tooMany counted many =>
        rw [validate, operations_eq_iff.mpr counted, if_pos many]
        rfl
    | fields counted few each all =>
        rw [← forall₂_comesTo_iff.mp each] at all
        rw [validate, operations_eq_iff.mpr counted, if_neg (Nat.not_lt.mpr few)]
        exact gathered_eq_iff.mpr all

end Filter
end ResourceQuery
