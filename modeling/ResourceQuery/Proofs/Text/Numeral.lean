import ResourceQuery.Text.Numeral

/-!
# Text — numerals written and read back

* `nat?_padded`: a number is read back from its digits, whatever zeros stand in front.
* `length_padded`: a number that has the room takes the places it is given.  One that has not
  starts with a digit other than zero (`exists_cons_padded`).
* `toString_ne_zero_cons`: no number but zero starts with a zero.
* `natOfDigits_lt`: a run of digits writes a number below the power of ten of its length.
-/

namespace ResourceQuery.Text

/-- The digits of a number are digits. -/
theorem isDigit_of_mem_toString {n : Nat} {c : Char} (h : c ∈ (toString n).toList) :
    c.isDigit = true :=
  Nat.isDigit_of_mem_toDigits (by decide) (by decide) (Nat.toList_repr ▸ h)

theorem toString_toList_ne_nil (n : Nat) : (toString n).toList ≠ [] := by
  have h : (toString n).toList = Nat.toDigits 10 n := Nat.toList_repr
  rw [h]
  exact Nat.toDigits_ne_nil

/-- A number starts with a digit. -/
theorem exists_cons_toString (n : Nat) :
    ∃ c cs, (toString n).toList = c :: cs ∧ c.isDigit = true := by
  obtain ⟨c, cs, hcs⟩ := List.exists_cons_of_ne_nil (toString_toList_ne_nil n)
  exact ⟨c, cs, hcs, isDigit_of_mem_toString (n := n) (hcs ▸ List.mem_cons_self)⟩

theorem tenPow_pos (k : Nat) : 0 < tenPow k :=
  Nat.pow_pos (by decide)

/-! ### Reading -/

theorem natOfDigits_append (cs ds : List Char) :
    natOfDigits (cs ++ ds) = tenPow ds.length * natOfDigits cs + natOfDigits ds := by
  show Nat.ofDigitChars 10 (cs ++ ds) 0 = _
  rw [Nat.ofDigitChars_append, Nat.ofDigitChars_eq_ofDigitChars_zero]
  rfl

theorem digitValue_le {c : Char} (h : c.isDigit = true) : digitValue c ≤ 9 := by
  rw [Char.isDigit, Bool.and_eq_true, decide_eq_true_eq, decide_eq_true_eq] at h
  have hle : c.toNat ≤ '9'.toNat := h.2
  have hnine : '9'.toNat = '0'.toNat + 9 := rfl
  rw [digitValue]
  omega

/-- The first digit weighs the most. -/
theorem natOfDigits_cons (c : Char) (cs : List Char) :
    natOfDigits (c :: cs) = tenPow cs.length * digitValue c + natOfDigits cs := by
  have happend := natOfDigits_append [c] cs
  have hone : natOfDigits [c] = digitValue c := Nat.zero_add _
  rwa [hone] at happend

/-- **A run of digits writes a number below the power of ten of its length.** -/
theorem natOfDigits_lt : ∀ {cs : List Char}, cs.all Char.isDigit = true →
    natOfDigits cs < tenPow cs.length
  | [], _ => by decide
  | c :: cs, h => by
      rw [List.all_cons, Bool.and_eq_true] at h
      have hdigit : tenPow cs.length * digitValue c ≤ tenPow cs.length * 9 :=
        Nat.mul_le_mul_left _ (digitValue_le h.1)
      have hrest := natOfDigits_lt h.2
      have hpower : tenPow (cs.length + 1) = tenPow cs.length * 10 := rfl
      rw [natOfDigits_cons, List.length_cons, hpower]
      omega

theorem nat?_of_digits {cs : List Char} (hne : cs ≠ []) (h : cs.all Char.isDigit = true) :
    nat? cs = some (natOfDigits cs) := by
  have hempty : cs.isEmpty = false := List.isEmpty_eq_false_iff.mpr hne
  rw [nat?, hempty, h]
  rfl

/-- What is read as a number is a run of digits. -/
theorem nat?_eq_some_iff {cs : List Char} {n : Nat} :
    nat? cs = some n ↔ cs ≠ [] ∧ cs.all Char.isDigit = true ∧ natOfDigits cs = n := by
  constructor
  · intro h
    rw [nat?] at h
    split at h
    · cases h
    · rename_i hcs
      rw [Bool.or_eq_true, not_or, Bool.not_eq_true, Bool.not_eq_true, Bool.not_eq_false'] at hcs
      exact ⟨List.isEmpty_eq_false_iff.mp hcs.1, hcs.2, Option.some.inj h⟩
  · rintro ⟨hne, h, rfl⟩
    exact nat?_of_digits hne h

/-! ### Writing -/

theorem all_isDigit_padded (width n : Nat) : (padded width n).all Char.isDigit = true := by
  rw [padded, List.all_append, Bool.and_eq_true, List.all_eq_true, List.all_eq_true]
  constructor
  · intro c hc
    rw [List.eq_of_mem_replicate hc]
    rfl
  · exact fun c hc => isDigit_of_mem_toString hc

theorem natOfDigits_toString (n : Nat) : natOfDigits (toString n).toList = n := by
  have hdigits : (toString n).toList = Nat.toDigits 10 n := Nat.toList_repr
  rw [hdigits]
  exact Nat.ofDigitChars_ten_toDigits

theorem natOfDigits_padded (width n : Nat) : natOfDigits (padded width n) = n := by
  show Nat.ofDigitChars 10 (padded width n) 0 = n
  rw [padded, Nat.ofDigitChars_append, Nat.ofDigitChars_replicate_zero, Nat.mul_zero]
  exact natOfDigits_toString n

theorem padded_ne_nil (width n : Nat) : padded width n ≠ [] := by
  rw [padded]
  exact List.append_ne_nil_of_right_ne_nil _ (toString_toList_ne_nil n)

/-- **A number is read back from its digits, whatever zeros stand in front.** -/
theorem nat?_padded (width n : Nat) : nat? (padded width n) = some n :=
  nat?_eq_some_iff.mpr
    ⟨padded_ne_nil width n, all_isDigit_padded width n, natOfDigits_padded width n⟩

/-- **A number that has the room takes the places it is given.** -/
theorem length_padded {width n : Nat} (hwidth : 0 < width) (h : n < tenPow width) :
    (padded width n).length = width := by
  have hdigits : (toString n).toList = Nat.toDigits 10 n := Nat.toList_repr
  have hle : (Nat.toDigits 10 n).length ≤ width :=
    (Nat.length_toDigits_le_iff (by decide) hwidth).mpr h
  rw [padded, List.length_append, List.length_replicate, hdigits]
  omega

/-- **No number but zero starts with a zero**: with a zero in front, the digits would be too many
for what they write. -/
theorem toString_ne_zero_cons (n : Nat) (c : Char) (cs : List Char) :
    (toString n).toList ≠ '0' :: c :: cs := by
  intro h
  have hdigits : (toString n).toList = Nat.toDigits 10 n := Nat.toList_repr
  have hall : (c :: cs).all Char.isDigit = true := by
    rw [List.all_eq_true]
    intro d hd
    exact isDigit_of_mem_toString (n := n) (h ▸ List.mem_cons_of_mem _ hd)
  have hvalue : natOfDigits (c :: cs) = n := by
    have hread := natOfDigits_toString n
    rwa [h, natOfDigits_cons, show digitValue '0' = 0 from rfl, Nat.mul_zero, Nat.zero_add] at hread
  have hlt : n < tenPow (cs.length + 1) := hvalue ▸ natOfDigits_lt hall
  have hlength : (Nat.toDigits 10 n).length ≤ cs.length + 1 :=
    (Nat.length_toDigits_le_iff (by decide) (Nat.succ_pos _)).mpr hlt
  rw [← hdigits, h, List.length_cons, List.length_cons] at hlength
  omega

/-- **A number that has not the room takes more places**, and starts with no zero. -/
theorem exists_cons_padded {width n : Nat} (hwidth : 0 < width) (h : tenPow width ≤ n) :
    ∃ c cs, padded width n = c :: cs ∧ '0' < c := by
  have hdigits : (toString n).toList = Nat.toDigits 10 n := Nat.toList_repr
  have hlong : ¬ (toString n).toList.length ≤ width := by
    rw [hdigits, Nat.length_toDigits_le_iff (by decide) hwidth]
    exact Nat.not_lt.mpr h
  obtain ⟨c, cs, hcs, hc⟩ := exists_cons_toString n
  rw [hcs, List.length_cons] at hlong
  have hbare : padded width n = c :: cs := by
    rw [padded, hcs, List.length_cons, Nat.sub_eq_zero_of_le (by omega)]
    rfl
  have hzero : c ≠ '0' := by
    rintro rfl
    cases cs with
    | nil => exact hlong hwidth
    | cons d cs => exact toString_ne_zero_cons n d cs hcs
  refine ⟨c, cs, hbare, ?_⟩
  rw [Char.isDigit, Bool.and_eq_true, decide_eq_true_eq] at hc
  exact Std.lt_of_le_of_ne hc.1 (Ne.symm hzero)

end ResourceQuery.Text
