import Mathlib.Tactic.Ring
import ResourceQuery.Proofs.Text.Numeral

/-!
# Text — digits in order

Runs of digits are ordered as texts, character by character, as the decimals they write.

* `append_lt_append_of_decimals`: of two runs, the one that writes the smaller decimal comes first,
  provided that the shorter one is followed by something that comes before every digit.
* `padded_append_lt`: numbers that take the same places need no such proviso.
* `bytes_lt_bytes`: in ASCII, the order of the characters is that of the bytes.
-/

namespace ResourceQuery.Text

/-! ### Digits -/

theorem lt_of_digitValue_lt {c d : Char} (h : digitValue c < digitValue d) : c < d := by
  rw [digitValue, digitValue] at h
  rw [Char.lt_def, UInt32.lt_iff_toNat_lt]
  show c.toNat < d.toNat
  omega

theorem le_toNat_of_isDigit {c : Char} (h : c.isDigit = true) :
    '0'.toNat ≤ c.toNat ∧ c.toNat ≤ '9'.toNat := by
  rw [Char.isDigit, Bool.and_eq_true, decide_eq_true_eq, decide_eq_true_eq] at h
  exact ⟨UInt32.le_iff_toNat_le.mp h.1, UInt32.le_iff_toNat_le.mp h.2⟩

theorem eq_of_digitValue_eq {c d : Char} (hc : c.isDigit = true) (hd : d.isDigit = true)
    (h : digitValue c = digitValue d) : c = d := by
  have hc' := (le_toNat_of_isDigit hc).1
  have hd' := (le_toNat_of_isDigit hd).1
  rw [digitValue, digitValue] at h
  exact Char.toNat_inj.mp (by omega)

/-! ### Runs of digits -/

/-- What comes before every digit. -/
def BeforeDigits (rest : List Char) : Prop :=
  ∀ c cs, Char.isDigit c = true → rest < c :: cs

/-- **Runs of digits are ordered as the decimals they write.**  Both numbers are compared as `0.…`,
so each is scaled by the places of the other. -/
theorem append_lt_append_of_decimals : ∀ {cs ds rest rest' : List Char},
    cs.all Char.isDigit = true → ds.all Char.isDigit = true →
    natOfDigits cs * tenPow ds.length < natOfDigits ds * tenPow cs.length →
    (cs.length < ds.length → BeforeDigits rest) → cs ++ rest < ds ++ rest'
  | [], [], _, _, _, _, h, _ => absurd h (Nat.lt_irrefl _)
  | c :: cs, [], _, _, _, _, h, _ => by
      have hzero : natOfDigits [] = 0 := rfl
      simp [hzero] at h
  | [], d :: ds, rest, rest', _, hds, _, hrest => by
      rw [List.all_cons, Bool.and_eq_true] at hds
      exact hrest (Nat.succ_pos _) d _ hds.1
  | c :: cs, d :: ds, rest, rest', hcs, hds, h, hrest => by
      rw [List.all_cons, Bool.and_eq_true] at hcs hds
      have hds' := natOfDigits_lt hds.2
      rw [natOfDigits_cons, natOfDigits_cons, List.length_cons, List.length_cons] at h
      have hpower : ∀ k, tenPow (k + 1) = tenPow k * 10 := fun _ => rfl
      rw [hpower, hpower] at h
      rw [List.cons_append, List.cons_append, List.cons_lt_cons_iff]
      rcases Nat.lt_trichotomy (digitValue c) (digitValue d) with hlt | heq | hgt
      · exact .inl (lt_of_digitValue_lt hlt)
      · -- the first digits weigh the same, so the rest decides
        rw [heq] at h
        refine .inr ⟨eq_of_digitValue_eq hcs.1 hds.1 heq, ?_⟩
        refine append_lt_append_of_decimals hcs.2 hds.2 ?_ fun hlen => hrest (Nat.succ_lt_succ hlen)
        generalize tenPow cs.length = p at h ⊢
        generalize tenPow ds.length = q at h ⊢
        have hleft : (p * digitValue d + natOfDigits cs) * (q * 10) =
            (p * q * digitValue d + natOfDigits cs * q) * 10 := by ring
        have hright : (q * digitValue d + natOfDigits ds) * (p * 10) =
            (p * q * digitValue d + natOfDigits ds * p) * 10 := by ring
        omega
      · -- the rest of the smaller number is less than one of its first digit
        exfalso
        generalize tenPow cs.length = p at h
        generalize tenPow ds.length = q at h hds'
        refine absurd h (Nat.not_lt.mpr ?_)
        calc (q * digitValue d + natOfDigits ds) * (p * 10)
            ≤ (q * digitValue d + q) * (p * 10) :=
              Nat.mul_le_mul_right _ (Nat.add_le_add_left (Nat.le_of_lt hds') _)
          _ = p * (digitValue d + 1) * (q * 10) := by ring
          _ ≤ p * digitValue c * (q * 10) :=
              Nat.mul_le_mul_right _ (Nat.mul_le_mul_left _ hgt)
          _ ≤ (p * digitValue c + natOfDigits cs) * (q * 10) :=
              Nat.mul_le_mul_right _ (Nat.le_add_right _ _)

/-- **Numbers that take the same places are ordered as numbers**, and after equal ones the rest
decides. -/
theorem padded_append_lt {width m n : Nat} {rest rest' : List Char} (hwidth : 0 < width)
    (hn : n < tenPow width) (h : m < n ∨ m = n ∧ rest < rest') :
    padded width m ++ rest < padded width n ++ rest' := by
  rcases h with hlt | ⟨rfl, hrest⟩
  · have hlength : (padded width m).length = (padded width n).length :=
      (length_padded hwidth (Nat.lt_trans hlt hn)).trans (length_padded hwidth hn).symm
    refine append_lt_append_of_decimals (all_isDigit_padded _ _) (all_isDigit_padded _ _) ?_
      fun hlen => absurd hlen (by omega)
    rw [natOfDigits_padded, natOfDigits_padded, hlength]
    exact Nat.mul_lt_mul_of_pos_right hlt (tenPow_pos _)
  · exact List.append_left_lt hrest

/-! ### Bytes -/

/-- The bytes of a text, in UTF-8. -/
def bytes (s : String) : List UInt8 :=
  s.toUTF8.data.toList

/-- All characters are of ASCII. -/
def Ascii (cs : List Char) : Prop :=
  ∀ c ∈ cs, c.toNat < 128

theorem Ascii.append {cs ds : List Char} (hcs : Ascii cs) (hds : Ascii ds) : Ascii (cs ++ ds) := by
  intro c hc
  rcases List.mem_append.mp hc with hc | hc
  · exact hcs c hc
  · exact hds c hc

theorem Ascii.cons {c : Char} {cs : List Char} (hc : c.toNat < 128) (hcs : Ascii cs) :
    Ascii (c :: cs) :=
  List.forall_mem_cons.mpr ⟨hc, hcs⟩

theorem ascii_of_all_isDigit {cs : List Char} (h : cs.all Char.isDigit = true) : Ascii cs := by
  intro c hc
  have hle := (le_toNat_of_isDigit (List.all_eq_true.mp h c hc)).2
  exact Nat.lt_of_le_of_lt hle (by decide)

theorem ascii_padded (width n : Nat) : Ascii (padded width n) :=
  ascii_of_all_isDigit (all_isDigit_padded width n)

/-- In ASCII a character is a byte. -/
theorem bytes_ofList {cs : List Char} (h : Ascii cs) :
    bytes (String.ofList cs) = cs.map fun c => c.val.toUInt8 := by
  rw [bytes, String.toUTF8, String.toByteArray_ofList, List.utf8Encode,
    List.toList_data_toByteArray]
  induction cs with
  | nil => rfl
  | cons c cs ih =>
      have hsize : c.utf8Size = 1 :=
        Char.utf8Size_eq_one_iff.mpr
          (UInt32.le_iff_toNat_le.mpr (Nat.le_of_lt_succ (h c List.mem_cons_self)))
      rw [List.flatMap_cons, String.utf8EncodeChar_eq_singleton hsize,
        ih fun d hd => h d (List.mem_cons_of_mem _ hd)]
      rfl

/-- **In ASCII, the order of the characters is that of the bytes.** -/
theorem bytes_lt_bytes {cs ds : List Char} (hcs : Ascii cs) (hds : Ascii ds) (h : cs < ds) :
    bytes (String.ofList cs) < bytes (String.ofList ds) := by
  rw [bytes_ofList hcs, bytes_ofList hds]
  induction cs generalizing ds with
  | nil =>
      cases ds with
      | nil => exact absurd h (List.lt_irrefl [])
      | cons d ds => exact List.nil_lt_cons _ _
  | cons c cs ih =>
      cases ds with
      | nil => exact absurd h (List.not_lt_nil _)
      | cons d ds =>
          have hc : c.toNat < 128 := hcs c List.mem_cons_self
          have hd : d.toNat < 128 := hds d List.mem_cons_self
          rw [List.map_cons, List.map_cons, List.cons_lt_cons_iff]
          rcases List.cons_lt_cons_iff.mp h with hlt | ⟨rfl, hrest⟩
          · have hlt' : c.toNat < d.toNat := UInt32.lt_iff_toNat_lt.mp (Char.lt_def.mp hlt)
            refine .inl (UInt8.lt_iff_toNat_lt.mpr ?_)
            show c.toNat % 256 < d.toNat % 256
            omega
          · exact .inr ⟨rfl, ih (fun x hx => hcs x (List.mem_cons_of_mem _ hx))
              (fun x hx => hds x (List.mem_cons_of_mem _ hx)) hrest⟩

end ResourceQuery.Text
