import ResourceQuery.Proofs.Text.Numeral
import ResourceQuery.Proofs.Time.Calendar
import ResourceQuery.Time.Reading

/-!
# Time — instants written and read back

* `Instant.Proper`: an instant that a clock can show.  What is read from a text is proper
  (`ofCellText?_proper`, `ofRequestText?_proper`).
* `rfc3339?_bareChars`: a proper instant of a year of four digits is read back from the text it is
  written as, to the nanosecond; so from the text a row returns for it (`ofRequestText?_zuluText`)
  and from the text it is stored as (`ofCellText?_text`).
-/

namespace ResourceQuery

/-- An instant that a clock can show: nanoseconds run past a second only in the last second of a
minute. -/
structure Instant.Proper (t : Instant) : Prop where
  inRange : t.inRange = true
  nanos : t.nanos < 2000000000
  leap : 1000000000 ≤ t.nanos → t.seconds % 60 = 59

/-- An instant that RFC 3339 can write: a proper one of a year of four digits. -/
structure Instant.Writable (t : Instant) : Prop where
  proper : t.Proper
  year_nonneg : 0 ≤ (Date.ofSeconds t.seconds).year
  year_le : (Date.ofSeconds t.seconds).year ≤ 9999

theorem Instant.ofSeconds?_proper {s : Int} {t : Instant} (h : ofSeconds? s = some t) :
    t.Proper := by
  rw [ofSeconds?] at h
  split at h
  · rename_i hrange
    cases h
    exact ⟨hrange, by simp, by simp⟩
  · cases h

namespace Time

/-! ### Numbers -/

theorem exactly?_padded {width n : Nat} (hwidth : 0 < width) (h : n < tenPow width)
    (rest : List Char) : exactly? width (Text.padded width n ++ rest) = some (n, rest) := by
  have hlength := Text.length_padded hwidth h
  have hfew : ¬ (Text.padded width n ++ rest).length < width := by
    rw [List.length_append, hlength]
    omega
  rw [exactly?, if_neg hfew, List.take_left' hlength, List.drop_left' hlength, Text.nat?_padded]
  rfl

/-- The text does not go on with a number or its decimals. -/
def EndsNumber (rest : List Char) : Prop :=
  ∀ c cs, rest = c :: cs → c.isDigit = false ∧ c ≠ '.'

theorem takeWhile_isDigit_append {ds rest : List Char} (hds : ds.all Char.isDigit = true)
    (hrest : EndsNumber rest) : (ds ++ rest).takeWhile Char.isDigit = ds := by
  have hend : rest.takeWhile Char.isDigit = [] := by
    cases rest with
    | nil => rfl
    | cons c cs => exact List.takeWhile_cons_of_neg (by simp [(hrest c cs rfl).1])
  rw [List.takeWhile_append_of_pos (List.all_eq_true.mp hds), hend, List.append_nil]

theorem decimals?_padded {places n : Nat} {rest : List Char} (hplaces : 0 < places)
    (hmost : places ≤ 9) (h : n < tenPow places) (hrest : EndsNumber rest) :
    decimals? (Text.padded places n ++ rest) = some (n * tenPow (9 - places), rest) := by
  have hlength := Text.length_padded hplaces h
  have hkept : (Text.padded places n).take 9 = Text.padded places n :=
    List.take_of_length_le (by omega)
  rw [decimals?, takeWhile_isDigit_append (Text.all_isDigit_padded places n) hrest, hkept,
    Text.nat?_padded, List.drop_left, hlength]
  rfl

theorem fraction?_point (cs : List Char) : fraction? ('.' :: cs) = decimals? cs :=
  rfl

/-- A fraction of a second as it is written: `n` in so many decimals. -/
structure Decimals (nanos places n : Nat) : Prop where
  pos : 0 < places
  le : places ≤ 9
  lt : n < tenPow places
  value : n * tenPow (9 - places) = nanos
  chars : Instant.fractionChars nanos = '.' :: Text.padded places n

theorem exists_decimals {nanos : Nat} (hne : nanos ≠ 0) (h : nanos < 1000000000) :
    ∃ places n, Decimals nanos places n := by
  have hplaces : tenPow 3 = 1000 ∧ tenPow 6 = 1000000 ∧ tenPow 9 = 1000000000 :=
    ⟨rfl, rfl, rfl⟩
  by_cases hmilli : nanos % 1000000 = 0
  · refine ⟨3, nanos / 1000000, by decide, by decide, by omega, ?_, ?_⟩
    · exact Nat.div_mul_cancel (Nat.dvd_of_mod_eq_zero hmilli)
    · rw [Instant.fractionChars, if_neg hne, if_pos hmilli]
  · by_cases hmicro : nanos % 1000 = 0
    · refine ⟨6, nanos / 1000, by decide, by decide, by omega, ?_, ?_⟩
      · exact Nat.div_mul_cancel (Nat.dvd_of_mod_eq_zero hmicro)
      · rw [Instant.fractionChars, if_neg hne, if_neg hmilli, if_pos hmicro]
    · refine ⟨9, nanos, by decide, by decide, by omega, Nat.mul_one nanos, ?_⟩
      rw [Instant.fractionChars, if_neg hne, if_neg hmilli, if_neg hmicro]

/-- **The decimals of a second are read back.** -/
theorem fraction?_fractionChars {nanos : Nat} (h : nanos < 1000000000) {rest : List Char}
    (hrest : EndsNumber rest) :
    fraction? (Instant.fractionChars nanos ++ rest) = some (nanos, rest) := by
  by_cases hzero : nanos = 0
  · subst hzero
    cases rest with
    | nil => rfl
    | cons c cs =>
        have hchars : Instant.fractionChars 0 = [] := rfl
        rw [hchars, List.nil_append]
        unfold fraction?
        split
        · rename_i hc
          cases hc
          exact absurd rfl (hrest '.' _ rfl).2
        · rfl
  · obtain ⟨places, n, hdecimals⟩ := exists_decimals hzero h
    rw [hdecimals.chars, List.cons_append, fraction?_point,
      decimals?_padded hdecimals.pos hdecimals.le hdecimals.lt hrest, hdecimals.value]

/-! ### A proper instant is read back -/

/-- The seconds of the day before an instant. -/
def ofDay (t : Instant) : Nat :=
  (t.seconds % daySeconds).toNat

/-- The date and time of day that the text of an instant shows. -/
def shownParts (t : Instant) : Parts where
  year := (Date.ofSeconds t.seconds).year
  month := (Date.ofSeconds t.seconds).month
  day := (Date.ofSeconds t.seconds).day
  hour := ofDay t / 3600
  minute := ofDay t / 60 % 60
  second := ofDay t % 60 + t.nanos / 1000000000
  nanos := t.nanos % 1000000000

theorem ofDay_spec (t : Instant) :
    t.seconds = (Date.ofSeconds t.seconds).seconds + ofDay t ∧ ofDay t < 86400 := by
  rw [Date.seconds, Date.ofSeconds, ofDay, daySeconds]
  dsimp only
  omega

/-- The second of the minute is 60 in a leap second, and in no other. -/
theorem shownParts_second {t : Instant} (h : t.Proper) :
    t.nanos / 1000000000 = 0 ∧ (shownParts t).second < 60 ∨
      t.nanos / 1000000000 = 1 ∧ ofDay t % 60 = 59 ∧ (shownParts t).second = 60 := by
  have hsecond : (shownParts t).second = ofDay t % 60 + t.nanos / 1000000000 := rfl
  have hnanos := h.nanos
  rcases Nat.lt_or_ge t.nanos 1000000000 with hlt | hge
  · exact .inl (by omega)
  · have hminute : ofDay t % 60 = 59 := by
      have hlast := h.leap hge
      rw [ofDay, daySeconds]
      omega
    exact .inr (by omega)

theorem shownParts_clock {t : Instant} (h : t.Proper) :
    (shownParts t).hour < 24 ∧ (shownParts t).minute < 60 ∧ (shownParts t).second ≤ 60 := by
  have hhour : (shownParts t).hour = ofDay t / 3600 := rfl
  have hminute : (shownParts t).minute = ofDay t / 60 % 60 := rfl
  have hday := (ofDay_spec t).2
  have hsecond := shownParts_second h
  omega

/-- **A clock shows a proper instant at that instant.** -/
theorem toInstant?_shownParts {t : Instant} (h : t.Proper) :
    (shownParts t).toInstant? 0 = some t := by
  have hdate : Date.ofCivil? (shownParts t).year (shownParts t).month (shownParts t).day =
      some (Date.ofSeconds t.seconds) := Date.ofCivil?_civil h.inRange
  obtain ⟨hhour, hminute, hsecond⟩ := shownParts_clock h
  have hclock : (decide ((shownParts t).hour < 24) && decide ((shownParts t).minute < 60) &&
      decide ((shownParts t).second ≤ 60)) = true := by
    simp only [hhour, hminute, hsecond, decide_true, Bool.and_self]
  have hinstant : Instant.mk ((Date.ofSeconds t.seconds).seconds +
      ((shownParts t).hour * 3600 + (shownParts t).minute * 60 +
        ((shownParts t).second - (shownParts t).second / 60) : Nat) - 0)
      ((shownParts t).nanos + (shownParts t).second / 60 * 1000000000) = t := by
    have hext : ∀ {seconds : Int} {nanos : Nat}, seconds = t.seconds → nanos = t.nanos →
        Instant.mk seconds nanos = t := by
      rintro _ _ rfl rfl
      rfl
    have hleap := shownParts_second h
    refine hext ?_ ?_
    · have hseconds := (ofDay_spec t).1
      have hparts : (shownParts t).hour = ofDay t / 3600 ∧
          (shownParts t).minute = ofDay t / 60 % 60 ∧
          (shownParts t).second = ofDay t % 60 + t.nanos / 1000000000 := ⟨rfl, rfl, rfl⟩
      omega
    · have hnanos : (shownParts t).nanos = t.nanos % 1000000000 := rfl
      omega
  rw [Parts.toInstant?, hdate]
  dsimp only
  rw [if_pos hclock, hinstant, if_pos h.inRange]

/-- What follows the year in the text of an instant, number by number. -/
def afterYear (t : Instant) (rest : List Char) : List Char :=
  '-' :: (Text.padded 2 (shownParts t).month ++ '-' ::
    (Text.padded 2 (shownParts t).day ++ 'T' ::
      (Text.padded 2 (shownParts t).hour ++ ':' ::
        (Text.padded 2 (shownParts t).minute ++ ':' ::
          (Text.padded 2 (shownParts t).second ++
            (Instant.fractionChars (shownParts t).nanos ++ rest))))))

/-- The text of an instant is its year and what follows it. -/
theorem bareChars_eq (t : Instant) (rest : List Char) :
    t.bareChars ++ rest = Date.yearChars (shownParts t).year ++ afterYear t rest := by
  rw [Instant.bareChars, Date.chars, Instant.clockChars]
  simp only [List.append_assoc, List.cons_append]
  rfl

theorem yearChars_of_short {y : Int} (h : 0 ≤ y) (h' : y ≤ 9999) :
    Date.yearChars y = Text.padded 4 y.toNat :=
  if_pos ⟨h, h'⟩

/-- The text of an instant of a year of four digits, number by number. -/
theorem bareChars_append {t : Instant} (hyear : 0 ≤ (shownParts t).year)
    (hyear' : (shownParts t).year ≤ 9999) (rest : List Char) :
    t.bareChars ++ rest =
      Text.padded 4 (shownParts t).year.toNat ++ '-' ::
        (Text.padded 2 (shownParts t).month ++ '-' ::
          (Text.padded 2 (shownParts t).day ++ 'T' ::
            (Text.padded 2 (shownParts t).hour ++ ':' ::
              (Text.padded 2 (shownParts t).minute ++ ':' ::
                (Text.padded 2 (shownParts t).second ++
                  (Instant.fractionChars (shownParts t).nanos ++ rest)))))) := by
  rw [bareChars_eq, yearChars_of_short hyear hyear']
  rfl

/-- **A proper instant is read back from its text**, whatever offset of none the text ends with. -/
theorem rfc3339?_bareChars {t : Instant} (h : t.Proper) (hyear : 0 ≤ (shownParts t).year)
    (hyear' : (shownParts t).year ≤ 9999) {rest : List Char} (hrest : EndsNumber rest)
    (hoffset : rfcOffset? rest = some (0, [])) : rfc3339? (t.bareChars ++ rest) = some t := by
  have hmonth : (shownParts t).month ≤ 12 := (Date.ofSeconds t.seconds).monthAndDay_dayOfYear.1
  have hday : (shownParts t).day ≤ 31 := (Date.ofSeconds t.seconds).day_le
  obtain ⟨hhour, hminute, hsecond⟩ := shownParts_clock h
  have hyear'' : (shownParts t).year.toNat < tenPow 4 := by
    show _ < 10000
    omega
  have htwo : ∀ {n : Nat}, n < 100 → ∀ rest,
      exactly? 2 (Text.padded 2 n ++ rest) = some (n, rest) :=
    fun hn => exactly?_padded (by decide) hn
  have hmark : ∀ cs, rfcMark? ('T' :: cs) = some cs := fun _ => rfl
  have hchar : ∀ c cs, char? c (c :: cs) = some cs := fun _ _ => if_pos rfl
  have hnanos : (shownParts t).nanos < 1000000000 := Nat.mod_lt _ (by decide)
  rw [bareChars_append hyear hyear', rfc3339?]
  simp only [exactly?_padded (Nat.succ_pos 3) hyear'', htwo (Nat.lt_of_le_of_lt hmonth (by decide)),
    htwo (Nat.lt_of_le_of_lt hday (by decide)), htwo (Nat.lt_trans hhour (by decide)),
    htwo (Nat.lt_trans hminute (by decide)), htwo (Nat.lt_of_le_of_lt hsecond (by decide)),
    fraction?_fractionChars hnanos hrest, hoffset, hmark, hchar, Option.bind_eq_bind,
    Option.bind_some, List.isEmpty_nil, if_true, Int.toNat_of_nonneg hyear]
  exact toInstant?_shownParts h

/-- An instant is read back from the text a row returns for it. -/
theorem rfc3339?_zuluText {t : Instant} (h : t.Writable) :
    rfc3339? t.zuluText.toList = some t := by
  have hrest : EndsNumber ['Z'] := by
    rintro c cs heq
    cases heq
    decide
  rw [Instant.zuluText, String.toList_ofList]
  exact rfc3339?_bareChars h.proper h.year_nonneg h.year_le hrest rfl

/-- **A request may write an instant as a row does.** -/
theorem ofRequestText?_zuluText {t : Instant} (h : t.Proper) (hyear : 0 ≤ (shownParts t).year)
    (hyear' : (shownParts t).year ≤ 9999) : ofRequestText? t.zuluText = some t := by
  rw [ofRequestText?, rfc3339?_zuluText ⟨h, hyear, hyear'⟩]
  rfl

/-- **A text cell gives back the instant that was stored in it.** -/
theorem ofCellText?_text {t : Instant} (h : t.Writable) : ofCellText? t.text = some t := by
  have hrest : EndsNumber ['+', '0', '0', ':', '0', '0'] := by
    rintro c cs heq
    cases heq
    decide
  have hoffset : rfcOffset? ['+', '0', '0', ':', '0', '0'] = some (0, []) := by decide +kernel
  have hread : rfc3339? (t.bareChars ++ ['+', '0', '0', ':', '0', '0']) = some t :=
    rfc3339?_bareChars h.proper h.year_nonneg h.year_le hrest hoffset
  rw [ofCellText?, Instant.text, String.toList_ofList, hread]
  rfl

/-! ### What is read is proper -/

theorem decimals?_lt {cs rest : List Char} {n : Nat} (h : decimals? cs = some (n, rest)) :
    n < 1000000000 := by
  obtain ⟨v, hv, hn⟩ := Option.map_eq_some_iff.mp h
  obtain ⟨-, hdigits, hvalue⟩ := Text.nat?_eq_some_iff.mp hv
  have hlength : ((cs.takeWhile Char.isDigit).take 9).length ≤ 9 := List.length_take_le _ _
  have hlt := Text.natOfDigits_lt hdigits
  rw [hvalue] at hlt
  cases hn
  generalize ((cs.takeWhile Char.isDigit).take 9).length = kept at hlength hlt
  calc v * tenPow (9 - kept)
      < tenPow kept * tenPow (9 - kept) := Nat.mul_lt_mul_of_pos_right hlt (Text.tenPow_pos _)
    _ = tenPow (kept + (9 - kept)) := (Nat.pow_add 10 kept (9 - kept)).symm
    _ = 1000000000 := congrArg tenPow (Nat.add_sub_cancel' hlength)

theorem fraction?_lt {cs rest : List Char} {n : Nat} (h : fraction? cs = some (n, rest)) :
    n < 1000000000 := by
  unfold fraction? at h
  split at h
  · exact decimals?_lt h
  · cases h
    decide

/-- An offset is one of whole minutes. -/
theorem offset?_minutes {between : List Char → Option (List Char)} {cs rest : List Char} {o : Int}
    (h : offset? between cs = some (o, rest)) : o % 60 = 0 := by
  simp only [offset?, Option.bind_eq_bind, Option.bind_eq_some_iff] at h
  obtain ⟨⟨sign, _⟩, -, ⟨hours, _⟩, -, _, -, ⟨minutes, _⟩, -, hoffset⟩ := h
  split at hoffset
  · cases hoffset
  · cases hoffset
    have hwhole : ((hours * 3600 + minutes * 60 : Nat) : Int) = 60 * (hours * 60 + minutes) := by
      omega
    rw [hwhole, Int.mul_left_comm]
    exact Int.mul_emod_right 60 _

theorem rfcOffset?_minutes {cs rest : List Char} {o : Int}
    (h : rfcOffset? cs = some (o, rest)) : o % 60 = 0 := by
  unfold rfcOffset? at h
  split at h
  · cases h
  · split at h
    · cases h
      rfl
    · split at h
      · rename_i ho
        split at h
        · cases h
          exact offset?_minutes ho
        · cases h
      · cases h

theorem toInstant?_proper {p : Parts} {o : Int} {t : Instant} (h : p.toInstant? o = some t)
    (hnanos : p.nanos < 1000000000) (ho : o % 60 = 0) : t.Proper := by
  rw [Parts.toInstant?] at h
  split at h
  · cases h
  · rename_i date _
    split at h
    · rename_i hclock
      dsimp only at h
      split at h
      · rename_i hrange
        cases h
        have hsecond : p.second ≤ 60 := by
          rw [Bool.and_eq_true, decide_eq_true_eq] at hclock
          exact hclock.2
        refine ⟨hrange, ?_, ?_⟩
        · dsimp only
          omega
        · intro hleap
          dsimp only at hleap
          have hlast : p.second = 60 := by omega
          rw [hlast, Date.seconds, daySeconds]
          dsimp only
          omega
      · cases h
    · cases h

/-- **What is read as RFC 3339 is an instant that a clock can show.** -/
theorem rfc3339?_proper {cs : List Char} {t : Instant} (h : rfc3339? cs = some t) : t.Proper := by
  simp only [rfc3339?, Option.bind_eq_bind, Option.bind_eq_some_iff] at h
  obtain ⟨_, -, _, -, _, -, _, -, _, -, _, -, _, -, _, -, _, -, _, -, _, -, ⟨nanos, _⟩, hnanos,
    ⟨offset, _⟩, hoffset, ht⟩ := h
  split at ht
  · exact toInstant?_proper ht (fraction?_lt hnanos) (rfcOffset?_minutes hoffset)
  · cases ht

theorem looseDate?_nanos {cs rest : List Char} {p : Parts}
    (h : looseDate? cs = some (p, rest)) : p.nanos = 0 := by
  simp only [looseDate?, Option.bind_eq_bind, Option.bind_eq_some_iff] at h
  obtain ⟨_, -, _, -, _, -, _, -, _, -, hparts⟩ := h
  cases hparts
  rfl

theorem looseClock?_lt {seconds : Bool} {p p' : Parts} {cs rest : List Char}
    (h : looseClock? seconds p cs = some (p', rest)) (hp : p.nanos = 0) :
    p'.nanos < 1000000000 := by
  simp only [looseClock?, Option.bind_eq_bind, Option.bind_eq_some_iff] at h
  obtain ⟨_, -, _, -, _, -, hparts⟩ := h
  split at hparts
  · simp only [Option.bind_eq_some_iff] at hparts
    obtain ⟨_, -, _, -, ⟨nanos, _⟩, hnanos, hparts⟩ := hparts
    cases hparts
    exact fraction?_lt hnanos
  · cases hparts
    show p.nanos < 1000000000
    rw [hp]
    decide

theorem Ending.instant?_proper {p : Parts} {cs : List Char} {ending : Ending} {t : Instant}
    (h : ending.instant? p cs = some t) (hp : p.nanos < 1000000000) : t.Proper := by
  cases ending with
  | nothing | zulu =>
      rw [instant?] at h
      split at h
      · exact toInstant?_proper h hp rfl
      · cases h
  | offset =>
      simp only [instant?, Option.bind_eq_bind, Option.bind_eq_some_iff] at h
      obtain ⟨⟨o, r⟩, ho, ht⟩ := h
      dsimp only at ht
      split at ht
      · cases ht
      · split at ht
        · rcases Option.or_eq_some_iff.mp ht with ht | ⟨-, ht⟩
          · exact toInstant?_proper ht hp (offset?_minutes ho)
          · exact toInstant?_proper ht hp rfl
        · exact toInstant?_proper ht hp rfl

theorem looseForm?_proper {mark seconds : Bool} {ending : Ending} {cs : List Char} {t : Instant}
    (h : looseForm? mark seconds ending cs = some t) : t.Proper := by
  simp only [looseForm?, Option.bind_eq_bind, Option.bind_eq_some_iff] at h
  obtain ⟨_, hdate, ht⟩ := h
  split at ht
  all_goals
    simp only [Option.bind_eq_some_iff] at ht
    obtain ⟨_, -, _, hclock, ht⟩ := ht
    exact Ending.instant?_proper ht (looseClock?_lt hclock (looseDate?_nanos hdate))

/-- **What a request writes is an instant that a clock can show.** -/
theorem ofRequestText?_proper {s : String} {t : Instant} (h : ofRequestText? s = some t) :
    t.Proper := by
  rcases Option.or_eq_some_iff.mp h with h | ⟨-, h⟩
  · exact rfc3339?_proper h
  · simp only [bareDate?, Option.bind_eq_bind, Option.bind_eq_some_iff] at h
    obtain ⟨⟨p, rest⟩, hdate, ht⟩ := h
    split at ht
    · exact toInstant?_proper ht (by simp [looseDate?_nanos hdate]) rfl
    · cases ht

/-- **What is read from a text cell is an instant that a clock can show.** -/
theorem ofCellText?_proper {s : String} {t : Instant} (h : ofCellText? s = some t) : t.Proper := by
  rcases Option.or_eq_some_iff.mp h with h | ⟨-, h⟩
  · exact rfc3339?_proper h
  · obtain ⟨mark, -, h⟩ := List.exists_of_findSome?_eq_some h
    obtain ⟨seconds, -, h⟩ := List.exists_of_findSome?_eq_some h
    obtain ⟨ending, -, h⟩ := List.exists_of_findSome?_eq_some h
    exact looseForm?_proper h

end Time
end ResourceQuery
