import ResourceQuery.Proofs.Time.Order

/-!
# Time — texts of years with a sign

A year before 0 or after 9999 is written with a sign, and signs come before all digits.

* `text_lt_of_late`, `text_lt_of_negative`: so the text of a late year comes before those of all
  earlier years, and that of a year before 0 before those of four digits.
* `text_lt_of_minusOne`: among the years before 0 the last one comes first.
* `text_le_iff`: so of an instant up to the year 9999 and a later one from the year -1 on, it is
  known whether their texts are in the order of time.
-/

namespace ResourceQuery.Time

variable {a b : Instant} {y : Int} {rest rest' : List Char}

/-! ### Years as written -/

theorem yearChars_of_negative (h : y < 0) : Date.yearChars y = '-' :: Text.padded 4 y.natAbs := by
  rw [Date.yearChars, if_neg (by omega), if_pos h]

theorem yearChars_of_late (h : 9999 < y) : Date.yearChars y = '+' :: Text.padded 4 y.natAbs := by
  rw [Date.yearChars, if_neg (by omega), if_neg (by omega)]

/-- A sign comes before a number. -/
theorem sign_lt_padded {sign : Char} (hsign : sign < '0') (width n : Nat) :
    sign :: rest < Text.padded width n ++ rest' := by
  obtain ⟨c, cs, hcs⟩ := List.exists_cons_of_ne_nil (Text.padded_ne_nil width n)
  have hdigits := Text.all_isDigit_padded width n
  rw [hcs, List.all_cons, Bool.and_eq_true] at hdigits
  have hzero : '0' ≤ c := UInt32.le_iff_toNat_le.mpr (Text.le_toNat_of_isDigit hdigits.1).1
  rw [hcs, List.cons_append, List.cons_lt_cons_iff]
  exact .inl (Std.lt_of_lt_of_le hsign hzero)

/-- In four places, 1 comes before every larger number. -/
theorem padded_one_lt {n : Nat} (h : 1 < n) :
    Text.padded 4 1 ++ rest < Text.padded 4 n ++ rest' := by
  rcases Nat.lt_or_ge n (tenPow 4) with hroom | hroom
  · exact Text.padded_append_lt (by decide) hroom (.inl h)
  · obtain ⟨c, cs, hcs, hzero⟩ := Text.exists_cons_padded (by decide) hroom
    have hone : Text.padded 4 1 = ['0', '0', '0', '1'] := by decide +kernel
    rw [hone, hcs]
    exact List.cons_lt_cons_iff.mpr (.inl hzero)

/-! ### Texts of two years -/

/-- Texts are compared year first. -/
theorem text_lt_of_chars (h : Date.yearChars (shownParts a).year ++ afterYear a offsetChars <
    Date.yearChars (shownParts b).year ++ afterYear b offsetChars) :
    Text.bytes a.text < Text.bytes b.text := by
  refine Text.bytes_lt_bytes (ascii_text a) (ascii_text b) ?_
  rwa [bareChars_eq, bareChars_eq]

/-- **A year after 9999 comes before all earlier ones.** -/
theorem text_lt_of_late (ha : (shownParts a).year ≤ 9999) (hb : 9999 < (shownParts b).year) :
    Text.bytes b.text < Text.bytes a.text := by
  refine text_lt_of_chars ?_
  rw [yearChars_of_late hb, List.cons_append]
  rcases Int.lt_or_le (shownParts a).year 0 with hneg | hpos
  · have hsigns : '+' < '-' := by decide
    rw [yearChars_of_negative hneg, List.cons_append, List.cons_lt_cons_iff]
    exact .inl hsigns
  · rw [yearChars_of_short hpos ha]
    exact sign_lt_padded (by decide) 4 _

/-- **A year before 0 comes before those of four digits.** -/
theorem text_lt_of_negative (ha : (shownParts a).year < 0) (hb : 0 ≤ (shownParts b).year)
    (hb' : (shownParts b).year ≤ 9999) : Text.bytes a.text < Text.bytes b.text := by
  refine text_lt_of_chars ?_
  rw [yearChars_of_negative ha, yearChars_of_short hb hb', List.cons_append]
  exact sign_lt_padded (by decide) 4 _

/-- **The year -1 comes before all earlier ones.** -/
theorem text_lt_of_minusOne (ha : (shownParts a).year < -1) (hb : (shownParts b).year = -1) :
    Text.bytes b.text < Text.bytes a.text := by
  refine text_lt_of_chars ?_
  rw [hb, yearChars_of_negative (by decide), yearChars_of_negative (by omega), List.cons_append,
    List.cons_append, List.cons_lt_cons_iff]
  exact .inr ⟨rfl, padded_one_lt (by omega)⟩

/-- In one year, texts are in the order of what they show after it. -/
theorem text_lt_of_sameYear (hb : b.Proper) (hyear : (shownParts a).year = (shownParts b).year)
    (h : (shownParts a).BeforeInYear (shownParts b)) : Text.bytes a.text < Text.bytes b.text := by
  refine text_lt_of_chars ?_
  rw [hyear]
  exact List.append_left_lt (afterYear_lt hb h)

/-! ### The order of time -/

/-- **Whether two texts are in the order of time.**  They are if the later instant is of a year up
to 9999, and one from 0 on or that of the earlier instant. -/
theorem text_le_iff (ha : a.Proper) (hb : b.Proper) (h : a = b ∨ a.before b = true)
    (hfirst : (shownParts a).year ≤ 9999) (hlast : -1 ≤ (shownParts b).year) :
    Text.bytes a.text ≤ Text.bytes b.text ↔ (shownParts b).year ≤ 9999 ∧
      (0 ≤ (shownParts b).year ∨ (shownParts a).year = (shownParts b).year) := by
  rcases h with rfl | hbefore
  · exact ⟨fun _ => ⟨hfirst, .inr rfl⟩, fun _ => List.le_refl _⟩
  rcases shownParts_before ha hb hbefore with hyear | ⟨hyear, hin⟩
  · rcases Int.lt_or_le 9999 (shownParts b).year with hlate | hearly
    · have hlt := text_lt_of_late hfirst hlate
      exact ⟨fun hle => absurd hlt hle, fun hright => by omega⟩
    rcases Int.lt_or_le (shownParts b).year 0 with hneg | hpos
    · have hlt := text_lt_of_minusOne (a := a) (b := b) (by omega) (by omega)
      exact ⟨fun hle => absurd hlt hle, fun hright => by omega⟩
    · refine ⟨fun _ => ⟨hearly, .inl hpos⟩, fun _ => List.le_of_lt ?_⟩
      rcases Int.lt_or_le (shownParts a).year 0 with hneg | hpos'
      · exact text_lt_of_negative hneg hpos hearly
      · exact bytes_text_lt ⟨ha, hpos', hfirst⟩ ⟨hb, hpos, hearly⟩ hbefore
  · exact ⟨fun _ => ⟨by omega, .inr hyear⟩,
      fun _ => List.le_of_lt (text_lt_of_sameYear hb hyear hin)⟩

/-- An instant of the year -2 and the last hour of the year -1. -/
example : Text.bytes (Instant.mk (-62167222800) 0).text <
    Text.bytes (Instant.mk (-62201782800) 0).text := by decide +kernel

end ResourceQuery.Time
