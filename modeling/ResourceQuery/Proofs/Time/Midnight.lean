import ResourceQuery.Proofs.Time.Season

/-!
# Time — where a date begins

`Zone.startOfDay?` looks for the first minute of a date that is shown, and reads it under the first
offset it is shown under.

* `findSome?_range`: a search of the minutes ends at the first one that has an answer.
* `startOfDay?_daylight`, `startOfDay?_standard`, `startOfDay?_skipped`: so it gives the date's
  midnight on the daylight or on the standard clock, or the moment of a switch forward that skips
  this midnight.  The switches are those of the year that the midnight is shown in.
* `startOfDay_first`: in a regular zone that is the first second of the date, but for two kinds of
  midnights: one shown twice is read as the later of its two moments, and one in the standard time
  of another year's switches as a moment of the day before.
-/

namespace ResourceQuery

/-- Two days or more from either end of the dates. -/
structure Date.Inland (date : Date) : Prop where
  first : Date.first.days + 2 ≤ date.days
  last : date.days + 2 ≤ Date.last.days

/-- Every near offset shows a local time of an inland date at a moment in range. -/
theorem Date.Inland.inRange {date : Date} (inland : date.Inland) {x o : Int} (hx : 0 ≤ x)
    (hx' : x < daySeconds) (near : Zone.NearOffset o) :
    (Instant.mk (date.seconds + x - o) 0).inRange = true := by
  obtain ⟨hfirst, hlast⟩ := inland
  obtain ⟨hlow, hhigh⟩ := near
  have hdays : (Date.ofSeconds (date.seconds + x - o)).days = (date.days * 86400 + x - o) / 86400 :=
    rfl
  rw [daySeconds] at hx' hlow hhigh
  rw [Instant.inRange, Date.inRange, Bool.and_eq_true, decide_eq_true_eq, decide_eq_true_eq, hdays]
  omega

/-- A search of numbers in turn ends at the first one that has an answer. -/
theorem findSome?_range {α : Type} {f : Nat → Option α} {n k : Nat} {a : α} (hk : k < n)
    (h : f k = some a) (hbefore : ∀ j < k, f j = none) : (List.range n).findSome? f = some a := by
  induction n with
  | zero => exact absurd hk (Nat.not_lt_zero k)
  | succ n ih =>
      rw [List.range_succ, List.findSome?_append]
      rcases Nat.lt_or_eq_of_le (Nat.le_of_lt_succ hk) with hlt | rfl
      · rw [ih hlt]
        rfl
      · have hnone : (List.range k).findSome? f = none :=
          List.findSome?_eq_none_iff.mpr fun j hj => hbefore j (List.mem_range.mp hj)
        rw [hnone, List.findSome?_singleton, h]
        rfl

namespace Zone

variable {z : Zone} {date : Date} {standard daylight : Int} {start finish : Yearly}

/-! ### What a minute is read as -/

section Minute

variable {x o : Int} (inland : date.Inland) (hx : 0 ≤ x) (hx' : x < daySeconds)
  (near : NearOffset o)
include inland hx hx' near

theorem resolve?_once (h : z.readings (date.seconds + x) = .once o) :
    z.resolve? (date.seconds + x) = some (date.seconds + x - o) := by
  rw [resolve?, h]
  exact if_pos (inland.inRange hx hx' near)

theorem resolve?_twice {o' : Int} (near' : NearOffset o')
    (h : z.readings (date.seconds + x) = .twice o o') :
    z.resolve? (date.seconds + x) = some (date.seconds + x - o) := by
  rw [resolve?, h]
  dsimp only
  rw [inland.inRange hx hx' near, inland.inRange hx hx' near']
  rfl

end Minute

/-- The offsets of the local times of a date, by the switches of its year. -/
theorem readings_of_date {x : Int} (hx : 0 ≤ x) (hx' : x < daySeconds) :
    (seasonal standard daylight start finish).readings (date.seconds + x) =
      if date.seconds + x < finish.moment date.year - (daylight - standard) then .once daylight
      else if date.seconds + x ≤ finish.moment date.year then .twice standard daylight
      else if date.seconds + x < start.moment date.year then .once standard
      else if date.seconds + x < start.moment date.year + (daylight - standard) then .never
      else .once daylight := by
  rw [readings, date.ofSeconds_seconds_add hx hx']

/-! ### The first minute that is read -/

theorem startOfDay?_of_first {k : Nat} {t : Int} (hk : k < 24 * 60)
    (h : z.resolve? (date.seconds + 60 * k) = some t)
    (hbefore : ∀ j < k, z.resolve? (date.seconds + 60 * (j : Nat)) = none) :
    z.startOfDay? date = some t :=
  findSome?_range hk h hbefore

theorem startOfDay?_of_midnight {t : Int} (h : z.resolve? (date.seconds + 0) = some t) :
    z.startOfDay? date = some t :=
  startOfDay?_of_first (k := 0) (by decide) h fun j hj => absurd hj (Nat.not_lt_zero j)

theorem startOfDay?_fixed {o : Int} (near : NearOffset o) (inland : date.Inland) :
    (fixed o).startOfDay? date = some (date.seconds - o) := by
  refine startOfDay?_of_midnight ?_
  rw [resolve?_once inland (Int.le_refl 0) (by decide) near rfl, Int.add_zero]

section Search

variable (h : Seasons standard daylight start finish) (inland : date.Inland)
include h inland

/-- A midnight before the clocks of its year go back, or after they go forward. -/
theorem startOfDay?_daylight
    (hmidnight : date.seconds < finish.moment date.year - (daylight - standard) ∨
      start.moment date.year + (daylight - standard) ≤ date.seconds) :
    (seasonal standard daylight start finish).startOfDay? date =
      some (date.seconds - daylight) := by
  have hahead := h.ahead
  have hapart := h.apart date.year
  rw [daySeconds] at hapart
  refine startOfDay?_of_midnight ?_
  have hread : (seasonal standard daylight start finish).readings (date.seconds + 0) =
      .once daylight := by
    rw [readings_of_date (Int.le_refl 0) (by decide)]
    rcases hmidnight with hbefore | hafter
    · rw [if_pos (by omega)]
    · rw [if_neg (by omega), if_neg (by omega), if_neg (by omega), if_neg (by omega)]
  rw [resolve?_once inland (Int.le_refl 0) (by decide) h.nearDaylight hread, Int.add_zero]

/-- A midnight from the hour that clocks go back over to the switch forward. -/
theorem startOfDay?_standard
    (hlow : finish.moment date.year - (daylight - standard) ≤ date.seconds)
    (hhigh : date.seconds < start.moment date.year) :
    (seasonal standard daylight start finish).startOfDay? date =
      some (date.seconds - standard) := by
  refine startOfDay?_of_midnight ?_
  have hread : (seasonal standard daylight start finish).readings (date.seconds + 0) = _ :=
    readings_of_date (Int.le_refl 0) (by decide)
  rw [if_neg (by omega)] at hread
  by_cases hdoubled : date.seconds + 0 ≤ finish.moment date.year
  · rw [if_pos hdoubled] at hread
    rw [resolve?_twice inland (Int.le_refl 0) (by decide) h.nearStandard h.nearDaylight hread,
      Int.add_zero]
  · rw [if_neg hdoubled, if_pos (by omega)] at hread
    rw [resolve?_once inland (Int.le_refl 0) (by decide) h.nearStandard hread, Int.add_zero]

/-- A midnight that is skipped: the minutes up to the end of the gap have no answer. -/
theorem startOfDay?_skipped (hlow : start.moment date.year ≤ date.seconds)
    (hhigh : date.seconds < start.moment date.year + (daylight - standard)) :
    (seasonal standard daylight start finish).startOfDay? date =
      some (start.moment date.year - standard) := by
  have hshort := h.short
  have hapart := h.apart date.year
  rw [daySeconds] at hshort hapart
  -- the minutes of the gap from midnight on
  obtain ⟨k, hk⟩ : ∃ k : Nat,
      date.seconds + 60 * k = start.moment date.year + (daylight - standard) := by
    have hswitch := Yearly.moment_minutes h.soundStart date.year
    have hstandard := h.standardMinutes
    have hdaylight := h.daylightMinutes
    have hseconds : date.seconds = date.days * 86400 := rfl
    refine ⟨((start.moment date.year + (daylight - standard) - date.seconds) / 60).toNat, ?_⟩
    omega
  refine startOfDay?_of_first (k := k) (by omega) ?_ fun j hj => ?_
  · have hread : (seasonal standard daylight start finish).readings (date.seconds + 60 * k) =
        .once daylight := by
      rw [readings_of_date (by omega) (by rw [daySeconds]; omega), if_neg (by omega),
        if_neg (by omega), if_neg (by omega), if_neg (by omega)]
    rw [resolve?_once inland (by omega) (by rw [daySeconds]; omega) h.nearDaylight hread, hk]
    exact congrArg some (by omega)
  · have hread : (seasonal standard daylight start finish).readings (date.seconds + 60 * j) =
        .never := by
      rw [readings_of_date (by omega) (by rw [daySeconds]; omega), if_neg (by omega),
        if_neg (by omega), if_neg (by omega), if_pos (by omega)]
    rw [resolve?, hread]

end Search

/-! ### Whether it is the first second -/

/-- How far the two clocks of a zone are apart. -/
def shift : Zone → Int
  | fixed _ => 0
  | seasonal standard daylight _ _ => daylight - standard

/-- The midnight of a date is shown twice: clocks go back over it from a later time. -/
def Doubled : Zone → Date → Prop
  | fixed _, _ => False
  | seasonal standard daylight _ finish, date =>
      finish.moment date.year - (daylight - standard) ≤ date.seconds ∧
        date.seconds < finish.moment date.year

/-- The midnight of a date is in standard time, or is skipped at the end of it, between the switches
of a year that it is not in itself. -/
def OutOfYear : Zone → Date → Prop
  | fixed _, _ => False
  | seasonal standard daylight start finish, date =>
      ∃ y, y ≠ date.year ∧ finish.moment y ≤ date.seconds ∧
        date.seconds < start.moment y + (daylight - standard)

section Seasonal

variable (h : Seasons standard daylight start finish) (inland : date.Inland) {y : Int}
include h inland

/-- A midnight of daylight time that is not doubled. -/
theorem startOfDay?_summer (hlow : start.moment y + (daylight - standard) ≤ date.seconds)
    (hhigh : date.seconds < finish.moment (y + 1))
    (honce : ¬ (seasonal standard daylight start finish).Doubled date) :
    (seasonal standard daylight start finish).startOfDay? date =
      some (date.seconds - daylight) := by
  have hahead := h.ahead
  refine startOfDay?_daylight h inland ?_
  by_cases hbefore : date.seconds < finish.moment date.year - (daylight - standard)
  · exact .inl hbefore
  · have hback : finish.moment date.year ≤ date.seconds := by
      by_contra hover
      exact honce ⟨Int.not_lt.mp hbefore, Int.not_le.mp hover⟩
    -- so its year is no later than the one the season begins in
    have hyear : date.year ≤ y := by
      by_contra hlater
      have hmono := h.finish_mono (Int.add_one_le_of_lt (Int.not_le.mp hlater))
      omega
    rcases Int.lt_or_eq_of_le hyear with hlt | heq
    · have hover := h.start_before hlt
      have hapart := h.apart y
      rw [daySeconds] at hover hapart
      exact .inr (by omega)
    · exact .inr (heq ▸ hlow)

/-- A midnight out of its year is read as one of daylight time. -/
theorem startOfDay?_outOfYear (hyear : y ≠ date.year) (hlow : finish.moment y ≤ date.seconds)
    (hhigh : date.seconds < start.moment y + (daylight - standard)) :
    (seasonal standard daylight start finish).startOfDay? date =
      some (date.seconds - daylight) := by
  have hshort := h.short
  refine startOfDay?_daylight h inland ?_
  rcases Int.lt_or_gt_of_ne hyear with hlt | hgt
  · have hover := h.start_before hlt
    rw [daySeconds] at hshort hover
    exact .inl (by omega)
  · have hover := h.start_before hgt
    rw [daySeconds] at hshort hover
    exact .inr (by omega)

/-- **A midnight out of its year is read as too early a moment.** -/
theorem startOfDay_early (hyear : y ≠ date.year) (hlow : finish.moment y ≤ date.seconds)
    (hhigh : date.seconds < start.moment y + (daylight - standard)) :
    ∃ t first, (seasonal standard daylight start finish).startOfDay? date = some t ∧ t < first ∧
      IsLeast {s | (seasonal standard daylight start finish).dateAt s = date} first := by
  have hahead := h.ahead
  have hread := startOfDay?_outOfYear h inland hyear hlow hhigh
  by_cases hwinter : date.seconds < start.moment y
  · exact ⟨_, _, hread, by omega, isLeast_winter h hlow hwinter⟩
  · exact ⟨_, _, hread, by omega, isLeast_skipped h (Int.not_lt.mp hwinter) hhigh⟩

/-- A midnight in the standard time of its year, or skipped at the end of it. -/
theorem startOfDay_winter (hlow : finish.moment date.year ≤ date.seconds)
    (hhigh : date.seconds < start.moment date.year + (daylight - standard)) :
    ∃ t, (seasonal standard daylight start finish).startOfDay? date = some t ∧
      IsLeast {s | (seasonal standard daylight start finish).dateAt s = date} t := by
  have hahead := h.ahead
  by_cases hwinter : date.seconds < start.moment date.year
  · exact ⟨_, startOfDay?_standard h inland (by omega) hwinter, isLeast_winter h hlow hwinter⟩
  · have hskipped := Int.not_lt.mp hwinter
    exact ⟨_, startOfDay?_skipped h inland hskipped hhigh, isLeast_skipped h hskipped hhigh⟩

/-- **A midnight that is neither doubled nor out of its year is read as the first second.** -/
theorem startOfDay_regular (honce : ¬ (seasonal standard daylight start finish).Doubled date)
    (hin : ¬ (seasonal standard daylight start finish).OutOfYear date) :
    ∃ t, (seasonal standard daylight start finish).startOfDay? date = some t ∧
      IsLeast {s | (seasonal standard daylight start finish).dateAt s = date} t := by
  obtain ⟨y, hlow, hhigh⟩ := exists_season h date
  by_cases hwinter : date.seconds < start.moment y + (daylight - standard)
  · have hyear : y = date.year := by
      by_contra hother
      exact hin ⟨y, hother, hlow, hwinter⟩
    subst hyear
    exact startOfDay_winter h inland hlow hwinter
  · have hsummer := Int.not_lt.mp hwinter
    exact ⟨_, startOfDay?_summer h inland hsummer hhigh honce, isLeast_summer h hsummer hhigh⟩

omit inland

/-- Clocks go back over a doubled midnight from the daylight time that began a year before. -/
theorem summer_of_doubled (hdoubled : (seasonal standard daylight start finish).Doubled date)
    {k : Int} (hk : k < date.year) : start.moment k + (daylight - standard) ≤ date.seconds := by
  have hshort := h.short
  have hover := h.start_before hk
  rw [daySeconds] at hshort hover
  have htwice := hdoubled.1
  omega

theorem not_outOfYear_of_doubled
    (hdoubled : (seasonal standard daylight start finish).Doubled date) :
    ¬ (seasonal standard daylight start finish).OutOfYear date := by
  rintro ⟨k, -, hlow, hhigh⟩
  have hk : k < date.year := by
    by_contra hlater
    have hmono := h.finish_mono (Int.not_lt.mp hlater)
    have hback := hdoubled.2
    omega
  have hsummer := summer_of_doubled h hdoubled hk
  omega

include inland

/-- **A doubled midnight is read as the later of its two moments.** -/
theorem startOfDay_doubled (hdoubled : (seasonal standard daylight start finish).Doubled date) :
    (seasonal standard daylight start finish).startOfDay? date = some (date.seconds - standard) ∧
      IsLeast {s | (seasonal standard daylight start finish).dateAt s = date}
        (date.seconds - daylight) := by
  obtain ⟨hlow, hhigh⟩ := hdoubled
  have hapart := h.apart date.year
  rw [daySeconds] at hapart
  refine ⟨startOfDay?_standard h inland hlow (by omega), ?_⟩
  refine isLeast_summer h (y := date.year - 1) ?_ (by rwa [Int.sub_add_cancel])
  exact summer_of_doubled h ⟨hlow, hhigh⟩ (Int.sub_one_lt_of_le (Int.le_refl _))

end Seasonal

/-- Where both switches of every year stay in that year, no midnight is out of its year. -/
theorem not_outOfYear_of_within (hfinish : ∀ y, Date.yearSeconds y ≤ finish.moment y)
    (hstart : ∀ y, start.moment y + (daylight - standard) ≤ Date.yearSeconds (y + 1)) :
    ¬ (seasonal standard daylight start finish).OutOfYear date := by
  rintro ⟨y, hyear, hlow, hhigh⟩
  have hdate := date.yearSeconds_seconds
  have hswitch := hfinish y
  have hswitch' := hstart y
  rcases Int.lt_or_gt_of_ne hyear with hlt | hgt
  · have hmono := Date.yearSeconds_mono (Int.add_one_le_of_lt hlt)
    omega
  · have hmono := Date.yearSeconds_mono (Int.add_one_le_of_lt hgt)
    omega

end Zone

open Zone in
/-- **What a date's start is read as.**  In a regular zone it is the first second of the date; but
one that is doubled is the later of two, and one out of its year is too early. -/
theorem startOfDay_first {z : Zone} {date : Date} (regular : z.Regular) (inland : date.Inland) :
    ∃ t, z.startOfDay? date = some t ∧
      (¬ z.Doubled date → ¬ z.OutOfYear date → IsLeast {s | z.dateAt s = date} t) ∧
      (z.Doubled date → 0 < z.shift ∧ IsLeast {s | z.dateAt s = date} (t - z.shift)) ∧
      (z.OutOfYear date → ∃ first, t < first ∧ IsLeast {s | z.dateAt s = date} first) := by
  cases regular with
  | fixed near =>
      exact ⟨_, startOfDay?_fixed near inland, fun _ _ => isLeast_fixed _ date, False.elim,
        False.elim⟩
  | @seasonal standard daylight start finish h =>
      by_cases hdoubled : (seasonal standard daylight start finish).Doubled date
      · obtain ⟨hread, hfirst⟩ := startOfDay_doubled h inland hdoubled
        refine ⟨_, hread, fun honce => absurd hdoubled honce, fun _ => ⟨?_, ?_⟩,
          fun hout => absurd hout (not_outOfYear_of_doubled h hdoubled)⟩
        · exact Int.sub_pos_of_lt h.ahead
        · rwa [shift, show date.seconds - standard - (daylight - standard) =
            date.seconds - daylight by omega]
      · by_cases hout : (seasonal standard daylight start finish).OutOfYear date
        · obtain ⟨y, hyear, hlow, hhigh⟩ := hout
          obtain ⟨t, first, hread, hearly, hfirst⟩ := startOfDay_early h inland hyear hlow hhigh
          exact ⟨t, hread, fun _ hin => absurd ⟨y, hyear, hlow, hhigh⟩ hin,
            fun htwice => absurd htwice hdoubled, fun _ => ⟨first, hearly, hfirst⟩⟩
        · obtain ⟨t, hread, hfirst⟩ := startOfDay_regular h inland hdoubled hout
          exact ⟨t, hread, fun _ _ => hfirst, fun htwice => absurd htwice hdoubled,
            fun hother => absurd hother hout⟩

/-- Clocks go forward at midnight, and back over midnight by half an hour more than that. -/
def Zone.midnightSwitches : Zone :=
  .seasonal (-10800) (-7200) ⟨300, 0⟩ ⟨50, 1800⟩

/-- When these switches are, in seconds of the year. -/
theorem Zone.midnightSwitches_moments (y : Int) :
    (Date.yearSeconds y + 299 * 86400 ≤ (Yearly.mk 300 0).moment y ∧
      (Yearly.mk 300 0).moment y ≤ Date.yearSeconds y + 300 * 86400) ∧
    Date.yearSeconds y + 49 * 86400 + 1800 ≤ (Yearly.mk 50 1800).moment y ∧
      (Yearly.mk 50 1800).moment y ≤ Date.yearSeconds y + 50 * 86400 + 1800 := by
  have hstart := Yearly.moment_bounds (r := ⟨300, 0⟩) (by constructor <;> decide) y
  have hfinish := Yearly.moment_bounds (r := ⟨50, 1800⟩) (by constructor <;> decide) y
  dsimp only [daySeconds] at hstart hfinish
  omega

theorem Zone.midnightSwitches_regular : midnightSwitches.Regular := by
  refine .seasonal ⟨by decide, by decide, rfl, rfl, by decide, by decide, ?_, ?_, fun y => ?_,
    fun y => ?_⟩
  · constructor <;> decide
  · constructor <;> decide
  · have hmoments := midnightSwitches_moments y
    rw [daySeconds]
    omega
  · have hmoments := midnightSwitches_moments y
    have hmoments' := midnightSwitches_moments (y + 1)
    have hyear := Date.yearSeconds_succ y
    rw [daySeconds] at hyear ⊢
    omega

/-- The first second of 27 October 2024 where its first hour is skipped. -/
theorem startOfDay_first_skipped :
    Zone.midnightSwitches.Regular ∧ (Date.mk 20023).Inland ∧
      Zone.midnightSwitches.startOfDay? ⟨20023⟩ = some 1729998000 ∧
      IsLeast {s | Zone.midnightSwitches.dateAt s = ⟨20023⟩} 1729998000 := by
  have inland : (Date.mk 20023).Inland := ⟨by decide +kernel, by decide +kernel⟩
  obtain ⟨t, hread, hfirst, -⟩ := startOfDay_first Zone.midnightSwitches_regular inland
  have hvalue : Zone.midnightSwitches.startOfDay? ⟨20023⟩ = some 1729998000 := by decide +kernel
  obtain rfl : t = 1729998000 := Option.some.inj (hread.symm.trans hvalue)
  refine ⟨Zone.midnightSwitches_regular, inland, hvalue, hfirst ?_ ?_⟩
  · rintro ⟨-, hover⟩
    exact absurd hover (by decide +kernel)
  · refine Zone.not_outOfYear_of_within (fun y => ?_) fun y => ?_
    · have hmoments := Zone.midnightSwitches_moments y
      omega
    · have hmoments := Zone.midnightSwitches_moments y
      have hyear := Date.yearSeconds_succ y
      rw [daySeconds] at hyear
      omega

/-- Where clocks go back over the midnight of 19 February 2024, that date is shown an hour before
what its start is read as. -/
theorem startOfDay_backOverMidnight :
    Zone.midnightSwitches.Regular ∧ (Date.mk 19772).Inland ∧
      Zone.midnightSwitches.startOfDay? ⟨19772⟩ = some 1708311600 ∧
      Zone.midnightSwitches.dateAt 1708308000 = ⟨19772⟩ ∧
      ¬ IsLeast {s | Zone.midnightSwitches.dateAt s = ⟨19772⟩} 1708311600 := by
  have hshown : Zone.midnightSwitches.dateAt 1708308000 = ⟨19772⟩ := by decide +kernel
  refine ⟨Zone.midnightSwitches_regular, ⟨by decide +kernel, by decide +kernel⟩, by decide +kernel,
    hshown, fun hleast => ?_⟩
  exact absurd (hleast.2 hshown) (by decide)

/-- Where clocks go forward from half past eleven on 31 December, 1 January begins too early. -/
example :
    let z : Zone := .seasonal (-10800) (-7200) ⟨365, 84600⟩ ⟨50, 3600⟩
    z.startOfDay? ⟨19723⟩ = some 1704074400 ∧ z.dateAt 1704074400 = ⟨19722⟩ := by
  decide +kernel

end ResourceQuery
