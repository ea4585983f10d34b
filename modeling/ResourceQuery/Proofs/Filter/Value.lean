import ResourceQuery.Filter.Value

/-!
# Filter — what a text is read as

* `Scalar.text?_ofText`: the text a value was read from is kept, whatever it was read as.
* `Scalar.ofText_of_hyphen`: digits that a hyphen follows are no number.  So a date is text.
-/

namespace ResourceQuery.Scalar

/-- **The text a value was read from is kept.** -/
theorem text?_ofText (s : String) : (ofText s).text? = some s := by
  rw [ofText]
  split
  · rfl
  · split
    · rfl
    · split
      · rfl
      · split <;> rfl

/-- What is read as text is the text itself. -/
theorem eq_of_ofText_eq_str {s s' : String} (h : ofText s = .str s') : s = s' := by
  have hraw := text?_ofText s
  rw [h] at hraw
  exact (Option.some.inj hraw).symm

/-- Digits have no case. -/
theorem lowerAscii_of_isDigit {c : Char} (h : c.isDigit = true) : Text.lowerAscii c = c := by
  rw [Char.isDigit, Bool.and_eq_true, decide_eq_true_eq, decide_eq_true_eq] at h
  have hnine : c.val ≤ '9'.val := h.2
  refine if_neg fun hcapital => ?_
  rw [Bool.and_eq_true, decide_eq_true_eq, decide_eq_true_eq] at hcapital
  have hle : 'A'.val ≤ '9'.val := UInt32.le_trans hcapital.1 hnine
  exact absurd hle (by decide)

/-- A text that starts with a digit is no word. -/
theorem sameAscii_of_isDigit {c d : Char} {cs ds : List Char} (h : c.isDigit = true)
    (hd : (Text.lowerAscii d).isDigit = false) : Text.sameAscii (c :: cs) (d :: ds) = false := by
  rw [Text.sameAscii, beq_eq_false_iff_ne, List.map_cons, List.map_cons,
    lowerAscii_of_isDigit h]
  intro heq
  rw [(List.cons.inj heq).1, hd] at h
  cases h

/-- Digits that a hyphen follows are no decimal numeral. -/
theorem decimal?_of_hyphen {c : Char} {ds rest : List Char}
    (h : (c :: ds).all Char.isDigit = true) : decimal? (c :: ds ++ '-' :: rest) = none := by
  have hdrop : (c :: ds ++ '-' :: rest).dropWhile Char.isDigit = '-' :: rest := by
    rw [List.dropWhile_append_of_pos (List.all_eq_true.mp h)]
    rfl
  unfold decimal?
  split
  · rename_i hsplit
    split at hsplit
    · rename_i heq
      -- a digit is no minus
      rw [(List.cons.inj heq).1] at h
      cases h
    · cases hsplit
      dsimp only
      rw [hdrop]
      rfl

/-- **Digits that a hyphen follows are read as text.** -/
theorem ofText_of_hyphen {s : String} {ds rest : List Char} (hne : ds ≠ [])
    (h : ds.all Char.isDigit = true) (hs : s.toList = ds ++ '-' :: rest) : ofText s = .str s := by
  obtain ⟨c, ds, rfl⟩ := List.exists_cons_of_ne_nil hne
  have hdigit : c.isDigit = true := by
    rw [List.all_cons, Bool.and_eq_true] at h
    exact h.1
  have htrue : Text.sameAscii (c :: (ds ++ '-' :: rest)) "true".toList = false :=
    sameAscii_of_isDigit hdigit rfl
  have hfalse : Text.sameAscii (c :: (ds ++ '-' :: rest)) "false".toList = false :=
    sameAscii_of_isDigit hdigit rfl
  have hdecimal : decimal? (c :: (ds ++ '-' :: rest)) = none := decimal?_of_hyphen h
  rw [List.cons_append] at hs
  rw [ofText, hs, htrue, hfalse, integer?, double?, hdecimal]
  rfl

end ResourceQuery.Scalar
