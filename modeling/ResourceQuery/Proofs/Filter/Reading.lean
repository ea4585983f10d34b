import ResourceQuery.Proofs.Filter.Value
import ResourceQuery.Proofs.Traversal

/-!
# Filter — what a document is read as

An operator reads a document in one of three ways (`Value.Read`).

* `Value.ofJson_eq_ok_iff`: the documents that an operator reads, and the values of each.
* `Value.ofJson_str`, `Value.ofJson_texts`: a text that is not split, and an array of texts.
-/

namespace ResourceQuery

namespace Scalar

/-- No text is read as null: its value keeps it. -/
theorem ofText_ne_null (s : String) : ofText s ≠ .null := by
  intro h
  have hraw := text?_ofText s
  rw [h] at hraw
  cases hraw

/-- Only null is read as null. -/
theorem eq_null_of_ofJson {j : Json} (h : ofJson j = .ok .null) : j = .null := by
  cases j with
  | null => rfl
  | str s => exact absurd (Except.ok.inj h) (ofText_ne_null s)
  | int n =>
      rw [ofJson] at h
      split at h <;> cases h
  | bool b | double d | arr js | obj ms => cases h

end Scalar

namespace Value

/-- What a document is read as for an operator: an array element by element; a text with a comma, if
the operator splits it, as the values of its items; and anything else as the single value it is. -/
inductive Read (op : Operator) : Json → Value → Prop where
  | array {js : List Json} {xs : List Scalar}
      (items : List.Forall₂ (fun j x => Scalar.ofJson j = .ok x) js xs) :
      Read op (.arr js) (list xs)
  | split {s : String} (splits : op.splits = true) (comma : ',' ∈ s.toList) :
      Read op (.str s) (list (ofItems s))
  | single {j : Json} {x : Scalar} (whole : ∀ s, j = .str s → op.splits = true → ',' ∉ s.toList)
      (h : Scalar.ofJson j = .ok x) : Read op j (scalar x)

theorem ofJson_of_whole {op : Operator} {j : Json} (harray : ∀ js, j ≠ .arr js)
    (whole : ∀ s, j = .str s → op.splits = true → ',' ∉ s.toList) :
    ofJson op j = (Scalar.ofJson j).map scalar := by
  cases j with
  | arr js => exact absurd rfl (harray js)
  | str s =>
      have hwhole : ¬ (op.splits && s.toList.contains ',') = true := by
        rw [Bool.and_eq_true, List.contains_iff_mem, not_and]
        exact whole s rfl
      rw [ofJson, if_neg hwhole]
      rfl
  | null | bool b | int n | double d | obj ms => rfl

/-- **The documents that an operator reads.** -/
theorem ofJson_eq_ok_iff {op : Operator} {j : Json} {v : Value} :
    ofJson op j = .ok v ↔ Read op j v := by
  constructor
  · intro h
    by_cases harray : ∃ js, j = .arr js
    · obtain ⟨js, rfl⟩ := harray
      obtain ⟨xs, hxs, rfl⟩ := map_eq_ok_iff.mp h
      exact .array (mapM_eq_ok_iff.mp hxs)
    · rw [not_exists] at harray
      by_cases hsplit : ∃ s, j = .str s ∧ op.splits = true ∧ ',' ∈ s.toList
      · obtain ⟨s, rfl, splits, comma⟩ := hsplit
        rw [ofJson, splits, List.contains_iff_mem.mpr comma] at h
        cases h
        exact .split splits comma
      · have whole : ∀ s, j = .str s → op.splits = true → ',' ∉ s.toList :=
          fun s hs splits comma => hsplit ⟨s, hs, splits, comma⟩
        rw [ofJson_of_whole harray whole] at h
        obtain ⟨x, hx, rfl⟩ := map_eq_ok_iff.mp h
        exact .single whole hx
  · intro h
    cases h with
    | array items => exact map_eq_ok_iff.mpr ⟨_, mapM_eq_ok_iff.mpr items, rfl⟩
    | split splits comma =>
        rw [ofJson, splits, List.contains_iff_mem.mpr comma]
        rfl
    | single whole h =>
        have harray : ∀ js, j ≠ .arr js := by
          rintro js rfl
          cases h
        rw [ofJson_of_whole harray whole]
        exact map_eq_ok_iff.mpr ⟨_, h, rfl⟩

/-- A text that is not split is read as a whole. -/
theorem ofJson_str {op : Operator} {s : String} (h : op.splits = true → ',' ∉ s.toList) :
    ofJson op (.str s) = .ok (scalar (Scalar.ofText s)) := by
  refine ofJson_eq_ok_iff.mpr (.single ?_ rfl)
  rintro s' heq
  cases heq
  exact h

/-- An array of texts is read as the values of these. -/
theorem ofJson_texts (op : Operator) (ss : List String) :
    ofJson op (.arr (ss.map .str)) = .ok (list (ss.map Scalar.ofText)) := by
  refine ofJson_eq_ok_iff.mpr (.array ?_)
  rw [List.forall₂_map_left_iff, List.forall₂_map_right_iff]
  exact List.forall₂_same.mpr fun _ _ => rfl

end Value

end ResourceQuery
