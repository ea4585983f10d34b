import ResourceQuery.Proofs.Text.Order
import ResourceQuery.Proofs.Time.Reading
import ResourceQuery.Query.Compile
import ResourceQuery.Store.Cell

/-!
# Time — texts in the order of time

The texts of instants are compared byte by byte where columns hold text.

* `shownParts_before`: of two proper instants, the earlier one shows the smaller year, or the same
  year and the smaller month, and so on down to the decimals of the second.
* `chars_lt_chars`: the texts are in the order of what they show, as each number takes the same
  places but the last, and what follows that one comes before every digit.
* `text_keeps_order`: so for years of four digits the texts that are bound for instants are in the
  order of time.
-/

namespace ResourceQuery

theorem Instant.before_iff {a b : Instant} :
    a.before b = true ↔ a.seconds < b.seconds ∨ a.seconds = b.seconds ∧ a.nanos < b.nanos := by
  simp [before]

namespace Time

/-! ### What instants show -/

/-- The first number in which two calendar dates and times differ is smaller in the first. -/
def Parts.Before (p q : Parts) : Prop :=
  p.year < q.year ∨ p.year = q.year ∧ (p.month < q.month ∨ p.month = q.month ∧
    (p.day < q.day ∨ p.day = q.day ∧ (p.hour < q.hour ∨ p.hour = q.hour ∧
      (p.minute < q.minute ∨ p.minute = q.minute ∧ (p.second < q.second ∨
        p.second = q.second ∧ p.nanos < q.nanos)))))

/-- The order of two times of one day.  A leap second is the 60th of its minute, and so later than
the second it prolongs. -/
theorem shownParts_clock_before {a b : Instant} (ha : a.Proper) (hb : b.Proper)
    (h : ofDay a < ofDay b ∨ ofDay a = ofDay b ∧ a.nanos < b.nanos) :
    (shownParts a).hour < (shownParts b).hour ∨ (shownParts a).hour = (shownParts b).hour ∧
      ((shownParts a).minute < (shownParts b).minute ∨
        (shownParts a).minute = (shownParts b).minute ∧
          ((shownParts a).second < (shownParts b).second ∨
            (shownParts a).second = (shownParts b).second ∧
              (shownParts a).nanos < (shownParts b).nanos)) := by
  have ha' := shownParts_second ha
  have hb' := shownParts_second hb
  simp only [shownParts] at ha' hb' ⊢
  omega

/-- **Of two proper instants, the earlier one shows the smaller numbers.** -/
theorem shownParts_before {a b : Instant} (ha : a.Proper) (hb : b.Proper)
    (h : a.before b = true) : (shownParts a).Before (shownParts b) := by
  rw [Instant.before_iff] at h
  have hdays : (Date.ofSeconds a.seconds).days = a.seconds / daySeconds ∧
      (Date.ofSeconds b.seconds).days = b.seconds / daySeconds := ⟨rfl, rfl⟩
  obtain ⟨ha₁, ha₂⟩ := ofDay_spec a
  obtain ⟨hb₁, hb₂⟩ := ofDay_spec b
  rw [Date.seconds, daySeconds] at ha₁ hb₁
  by_cases hdate : (Date.ofSeconds a.seconds).days < (Date.ofSeconds b.seconds).days
  · rcases Date.civil_lt hdate with hyear | ⟨hyear, hmonth | ⟨hmonth, hday⟩⟩
    · exact .inl hyear
    · exact .inr ⟨hyear, .inl hmonth⟩
    · exact .inr ⟨hyear, .inr ⟨hmonth, .inl hday⟩⟩
  · have heq : Date.ofSeconds a.seconds = Date.ofSeconds b.seconds :=
      congrArg Date.mk (by omega)
    have hclock := shownParts_clock_before ha hb (by rw [heq] at ha₁; omega)
    exact .inr ⟨congrArg Date.year heq, .inr ⟨congrArg Date.month heq,
      .inr ⟨congrArg Date.day heq, hclock⟩⟩⟩

/-! ### How it is written -/

/-- What the text of an instant ends with. -/
def offsetChars : List Char :=
  ['+', '0', '0', ':', '0', '0']

theorem offsetChars_beforeDigits : Text.BeforeDigits offsetChars := by
  intro c cs hc
  refine List.cons_lt_cons_iff.mpr (.inl ?_)
  have hdigit := (Text.le_toNat_of_isDigit hc).1
  rw [Char.lt_def, UInt32.lt_iff_toNat_lt]
  exact Nat.lt_of_lt_of_le (by decide) hdigit

/-- **The decimals of seconds are in order**, whatever number of them is written. -/
theorem fractionChars_lt {m n : Nat} (hn : n < 1000000000) (h : m < n) :
    Instant.fractionChars m ++ offsetChars < Instant.fractionChars n ++ offsetChars := by
  obtain ⟨q, y, hy⟩ := exists_decimals (Nat.ne_of_gt (Nat.zero_lt_of_lt h)) hn
  rw [hy.chars]
  by_cases hzero : m = 0
  · -- no decimals at all: the offset's sign comes before the point
    subst hzero
    have hplus : '+' < '.' := by decide
    exact List.cons_lt_cons_iff.mpr (.inl hplus)
  · obtain ⟨p, x, hx⟩ := exists_decimals hzero (Nat.lt_trans h hn)
    rw [hx.chars, List.cons_append, List.cons_append, List.cons_lt_cons_iff]
    refine .inr ⟨rfl, ?_⟩
    refine Text.append_lt_append_of_decimals (Text.all_isDigit_padded p x)
      (Text.all_isDigit_padded q y) ?_ fun _ => offsetChars_beforeDigits
    rw [Text.natOfDigits_padded, Text.natOfDigits_padded, Text.length_padded hx.pos hx.lt,
      Text.length_padded hy.pos hy.lt]
    have hscale : ∀ {k}, k ≤ 9 → tenPow (9 - k) * tenPow k = tenPow 9 := by
      intro k hk
      show 10 ^ (9 - k) * 10 ^ k = 10 ^ 9
      rw [← Nat.pow_add, Nat.sub_add_cancel hk]
    -- both sides as so many nanoseconds
    refine Nat.lt_of_mul_lt_mul_right (a := tenPow 9) ?_
    calc x * tenPow q * tenPow 9
        = x * tenPow (9 - p) * (tenPow p * tenPow q) := by rw [← hscale hx.le]; ring
      _ = m * (tenPow p * tenPow q) := by rw [hx.value]
      _ < n * (tenPow p * tenPow q) :=
          Nat.mul_lt_mul_of_pos_right h (Nat.mul_pos (Text.tenPow_pos p) (Text.tenPow_pos q))
      _ = y * tenPow (9 - q) * (tenPow p * tenPow q) := by rw [hy.value]
      _ = y * tenPow p * tenPow 9 := by rw [← hscale hy.le]; ring

/-- The order of two times of one year. -/
def Parts.BeforeInYear (p q : Parts) : Prop :=
  p.month < q.month ∨ p.month = q.month ∧
    (p.day < q.day ∨ p.day = q.day ∧ (p.hour < q.hour ∨ p.hour = q.hour ∧
      (p.minute < q.minute ∨ p.minute = q.minute ∧ (p.second < q.second ∨
        p.second = q.second ∧ p.nanos < q.nanos))))

/-- After the year, texts are in the order of what they show. -/
theorem afterYear_lt {a b : Instant} (hb : b.Proper)
    (h : (shownParts a).BeforeInYear (shownParts b)) :
    afterYear a offsetChars < afterYear b offsetChars := by
  have hcons : ∀ {c : Char} {rest rest' : List Char}, rest < rest' → c :: rest < c :: rest' :=
    fun hrest => List.cons_lt_cons_iff.mpr (.inr ⟨rfl, hrest⟩)
  have hnumber : ∀ {m n : Nat} {rest rest' : List Char}, n < 100 →
      (m < n ∨ m = n ∧ rest < rest') →
      Text.padded 2 m ++ rest < Text.padded 2 n ++ rest' :=
    fun hn hlt => Text.padded_append_lt (by decide) hn hlt
  have hmonth : (shownParts b).month ≤ 12 := (Date.ofSeconds b.seconds).monthAndDay_dayOfYear.1
  have hday : (shownParts b).day ≤ 31 := (Date.ofSeconds b.seconds).day_le
  obtain ⟨hhour, hminute, hsecond⟩ := shownParts_clock hb
  have hnanos : (shownParts b).nanos < 1000000000 := Nat.mod_lt _ (by decide)
  -- number by number, from the month down
  refine hcons (hnumber (by omega) (h.imp_right fun ⟨heq, h⟩ => ⟨heq, hcons ?_⟩))
  refine hnumber (by omega) (h.imp_right fun ⟨heq, h⟩ => ⟨heq, hcons ?_⟩)
  refine hnumber (by omega) (h.imp_right fun ⟨heq, h⟩ => ⟨heq, hcons ?_⟩)
  refine hnumber (by omega) (h.imp_right fun ⟨heq, h⟩ => ⟨heq, hcons ?_⟩)
  exact hnumber (by omega) (h.imp_right fun ⟨heq, h⟩ => ⟨heq, fractionChars_lt hnanos h⟩)

/-- **The texts of instants are in the order of what they show.** -/
theorem chars_lt_chars {a b : Instant} (ha : a.Writable) (hb : b.Writable)
    (h : (shownParts a).Before (shownParts b)) :
    a.bareChars ++ offsetChars < b.bareChars ++ offsetChars := by
  have hyear : 0 ≤ (shownParts a).year ∧ (shownParts a).year ≤ 9999 := ⟨ha.year_nonneg, ha.year_le⟩
  have hyear' : 0 ≤ (shownParts b).year ∧ (shownParts b).year ≤ 9999 :=
    ⟨hb.year_nonneg, hb.year_le⟩
  rw [bareChars_eq, bareChars_eq, yearChars_of_short hyear.1 hyear.2,
    yearChars_of_short hyear'.1 hyear'.2]
  refine Text.padded_append_lt (by decide) (show _ < 10000 by omega) ?_
  exact h.imp (fun hlt => by omega) fun ⟨heq, h⟩ => ⟨by rw [heq], afterYear_lt hb.proper h⟩

theorem ascii_fractionChars (nanos : Nat) : Text.Ascii (Instant.fractionChars nanos) := by
  have hpoint : ∀ width n, Text.Ascii ('.' :: Text.padded width n) :=
    fun width n => .cons (by decide) (Text.ascii_padded width n)
  rw [Instant.fractionChars]
  split
  · intro c hc
    cases hc
  · split
    · exact hpoint _ _
    · split
      · exact hpoint _ _
      · exact hpoint _ _

theorem ascii_yearChars (y : Int) : Text.Ascii (Date.yearChars y) := by
  have hnumber := Text.ascii_padded 4
  rw [Date.yearChars]
  split
  · exact hnumber _
  · split
    · exact .cons (by decide) (hnumber _)
    · exact .cons (by decide) (hnumber _)

theorem ascii_text (t : Instant) : Text.Ascii (t.bareChars ++ offsetChars) := by
  have hnumber := Text.ascii_padded
  have hoffset : Text.Ascii offsetChars := by
    simp [Text.Ascii, offsetChars]
  rw [bareChars_eq]
  refine (ascii_yearChars _).append (.cons (by decide) ((hnumber _ _).append ?_))
  refine .cons (by decide) ((hnumber _ _).append (.cons (by decide) ((hnumber _ _).append ?_)))
  refine .cons (by decide) ((hnumber _ _).append (.cons (by decide) ((hnumber _ _).append ?_)))
  exact (ascii_fractionChars _).append hoffset

/-! ### The order of time -/

theorem before_or_eq_or_before (a b : Instant) :
    a.before b = true ∨ a = b ∨ b.before a = true := by
  obtain ⟨s, n⟩ := a
  obtain ⟨s', n'⟩ := b
  simp only [Instant.before_iff, Instant.mk.injEq]
  omega

/-- An earlier instant has a smaller text. -/
theorem bytes_text_lt {a b : Instant} (ha : a.Writable) (hb : b.Writable)
    (h : a.before b = true) : Text.bytes a.text < Text.bytes b.text :=
  Text.bytes_lt_bytes (ascii_text a) (ascii_text b)
    (chars_lt_chars ha hb (shownParts_before ha.proper hb.proper h))

end Time

/-- **The texts that instants are bound as, for a column of instants as for one of text, are in the
order of time byte by byte, and tell the instants apart.** -/
theorem text_keeps_order {a b : Instant} (ha : a.Writable) (hb : b.Writable) :
    ∃ s u, Stored.ofValue (.timestamp a) = .text s ∧ Stored.ofValue (.timestamp b) = .text u ∧
      Condition.bindInstant .text a = .ok (.text s) ∧
      Condition.bindInstant .text b = .ok (.text u) ∧
      (a.before b = true ↔ Text.bytes s < Text.bytes u) ∧ (s = u → a = b) := by
  refine ⟨a.text, b.text, rfl, rfl, rfl, rfl, ?_, ?_⟩
  · constructor
    · exact Time.bytes_text_lt ha hb
    · intro h
      rcases Time.before_or_eq_or_before a b with hbefore | rfl | hafter
      · exact hbefore
      · exact absurd h (List.lt_irrefl _)
      · exact absurd h (List.lt_asymm (Time.bytes_text_lt hb ha hafter))
  · intro htext
    rcases Time.before_or_eq_or_before a b with hbefore | heq | hafter
    · have hlt := Time.bytes_text_lt ha hb hbefore
      rw [htext] at hlt
      exact absurd hlt (List.lt_irrefl _)
    · exact heq
    · have hlt := Time.bytes_text_lt hb ha hafter
      rw [htext] at hlt
      exact absurd hlt (List.lt_irrefl _)

/-- The last nanosecond before the leap second of 2016, and half of that second past. -/
theorem text_keeps_order_leapSecond :
    (Instant.mk 1483228799 999999999).Writable ∧ (Instant.mk 1483228799 1500000000).Writable ∧
      Text.bytes "2016-12-31T23:59:59.999999999+00:00" <
        Text.bytes "2016-12-31T23:59:60.500+00:00" := by
  have ha : (Instant.mk 1483228799 999999999).Writable :=
    ⟨⟨by decide +kernel, by decide, by decide⟩, by decide +kernel, by decide +kernel⟩
  have hb : (Instant.mk 1483228799 1500000000).Writable :=
    ⟨⟨by decide +kernel, by decide, by decide⟩, by decide +kernel, by decide +kernel⟩
  obtain ⟨s, u, hs, hu, -, -, horder, -⟩ := text_keeps_order ha hb
  have hs' : Stored.ofValue (.timestamp (Instant.mk 1483228799 999999999)) =
      .text "2016-12-31T23:59:59.999999999+00:00" := by decide +kernel
  have hu' : Stored.ofValue (.timestamp (Instant.mk 1483228799 1500000000)) =
      .text "2016-12-31T23:59:60.500+00:00" := by decide +kernel
  rw [hs'] at hs
  rw [hu'] at hu
  cases hs
  cases hu
  exact ⟨ha, hb, horder.mp rfl⟩

end ResourceQuery
