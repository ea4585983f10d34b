import Mathlib.Data.List.TakeWhile
import ResourceQuery.Text.Blank
import ResourceQuery.Text.Identifier

/-!
# Text — what a comma-joined list leaves out

* `flatten_segments`: the segments of a text are what is left of it without its separators.
* `trimChars_eq_nil_iff`: nothing is left of a segment exactly if it is all white space.
* `items_eq_nil_iff`: so a list has no element exactly if it is made of commas and white space.

No white space is in an identifier (`not_isBlank_of_isIdentifierRest`).
-/

namespace ResourceQuery.Text

section

variable {α : Type} [DecidableEq α] {sep c : α} {p cs : List α} {ps : List (List α)}

theorem segments_cons_sep (cs : List α) : segments sep (sep :: cs) = [] :: segments sep cs :=
  if_pos rfl

theorem segments_cons_of_ne (h : c ≠ sep) (hps : segments sep cs = p :: ps) :
    segments sep (c :: cs) = (c :: p) :: ps := by
  rw [segments, if_neg h, hps]

/-- The segments of a text are what is left of it without its separators. -/
theorem flatten_segments (sep : α) :
    ∀ cs : List α, (segments sep cs).flatten = cs.filter (· ≠ sep)
  | [] => rfl
  | c :: cs => by
      have ih := flatten_segments sep cs
      by_cases h : c = sep
      · rw [h, segments_cons_sep, List.flatten_cons, List.nil_append, ih,
          List.filter_cons_of_neg (by simp)]
      · obtain ⟨p, ps, hps⟩ := List.exists_cons_of_ne_nil (segments_ne_nil sep cs)
        rw [segments_cons_of_ne h hps, List.flatten_cons, List.cons_append, ← List.flatten_cons,
          ← hps, ih, List.filter_cons_of_pos (by simp [h])]

end

/-! ### White space -/

theorem dropBlanks_eq_nil_iff {cs : List Char} :
    dropBlanks cs = [] ↔ ∀ c ∈ cs, isBlank c = true :=
  List.dropWhile_eq_nil_iff

/-- What starts with something else than white space keeps its start. -/
theorem not_isBlank_of_dropBlanks {c : Char} {cs ds : List Char} (h : dropBlanks cs = c :: ds) :
    isBlank c = false := by
  have hhead := List.head?_dropWhile_not isBlank cs
  rw [← dropBlanks, h] at hhead
  exact hhead

/-- Nothing is left of a text that is all white space, and of no other. -/
theorem trimChars_eq_nil_iff {cs : List Char} :
    trimChars cs = [] ↔ ∀ c ∈ cs, isBlank c = true := by
  rw [trimChars, List.reverse_eq_nil_iff, dropBlanks_eq_nil_iff]
  constructor
  · intro h
    refine dropBlanks_eq_nil_iff.mp ?_
    cases hcs : dropBlanks cs with
    | nil => rfl
    | cons c ds =>
        rw [hcs] at h
        have hblank := h c (List.mem_reverse.mpr List.mem_cons_self)
        rw [not_isBlank_of_dropBlanks hcs] at hblank
        cases hblank
  · intro h c hc
    rw [dropBlanks_eq_nil_iff.mpr h] at hc
    cases hc

/-- **A comma-joined list has no element exactly if it is made of commas and white space.** -/
theorem items_eq_nil_iff {s : String} :
    items s = [] ↔ ∀ c ∈ s.toList, c = ',' ∨ isBlank c = true := by
  have hsegments : items s = [] ↔ ∀ p ∈ segments ',' s.toList, ∀ c ∈ p, isBlank c = true := by
    rw [items, List.map_eq_nil_iff, List.filter_eq_nil_iff, List.forall_mem_map]
    refine forall₂_congr fun p _ => ?_
    rw [← trimChars_eq_nil_iff, Bool.not_eq_true', Bool.not_eq_false, List.isEmpty_iff]
  have hflatten : (∀ p ∈ segments ',' s.toList, ∀ c ∈ p, isBlank c = true) ↔
      ∀ c ∈ (segments ',' s.toList).flatten, isBlank c = true := by
    rw [List.forall_mem_flatten]
  rw [hsegments, hflatten, flatten_segments]
  constructor
  · intro h c hc
    by_cases hcomma : c = ','
    · exact .inl hcomma
    · exact .inr (h c (List.mem_filter.mpr ⟨hc, decide_eq_true hcomma⟩))
  · intro h c hc
    obtain ⟨hc, hcomma⟩ := List.mem_filter.mp hc
    exact (h c hc).resolve_left (of_decide_eq_true hcomma)

example : items " ,\u3000, 1 , ,2," = ["1", "2"] := by decide

/-! ### Identifiers -/

theorem isIdentifierRest_of_mem {s : String} {c : Char} (h : isIdentifier s = true)
    (hc : c ∈ s.toList) : isIdentifierRest c = true := by
  rw [isIdentifier] at h
  cases hs : s.toList with
  | nil =>
      rw [hs] at hc
      cases hc
  | cons d ds =>
      rw [hs, isIdentifierChars, Bool.and_eq_true] at h
      rw [hs] at hc
      rcases List.mem_cons.mp hc with rfl | hc
      · rw [isIdentifierRest, h.1, Bool.true_or]
      · exact List.all_eq_true.mp h.2 c hc

/-- No white space is in an identifier. -/
theorem not_isBlank_of_isIdentifierRest {c : Char} (h : isIdentifierRest c = true) :
    isBlank c = false := by
  have hrange : 48 ≤ c.toNat ∧ c.toNat ≤ 122 := by
    simp only [isIdentifierRest, isIdentifierStart, Bool.or_eq_true, Bool.and_eq_true,
      decide_eq_true_eq, beq_iff_eq, Char.le_def, UInt32.le_iff_toNat_le] at h
    rcases h with ((⟨hlow, hhigh⟩ | ⟨hlow, hhigh⟩) | rfl) | ⟨hlow, hhigh⟩
    case inl.inl.inl => exact ⟨Nat.le_trans (by decide) hlow, hhigh⟩
    case inl.inl.inr => exact ⟨Nat.le_trans (by decide) hlow, Nat.le_trans hhigh (by decide)⟩
    case inl.inr => exact ⟨by decide, by decide⟩
    case inr => exact ⟨hlow, Nat.le_trans hhigh (by decide)⟩
  simp only [isBlank, Bool.or_eq_false_iff, Bool.and_eq_false_iff, decide_eq_false_iff_not,
    beq_eq_false_iff_ne]
  omega

end ResourceQuery.Text
