import Mathlib.Order.Bounds.Basic
import ResourceQuery.Proofs.Time.Calendar
import ResourceQuery.Time.Zone

/-!
# Time — the seasons of a zone

The clocks of a zone with two offsets go back to standard time in every year, and forward to
daylight time later in the year.

* `Yearly.moment_bounds`: where in its year a yearly moment is; 29 February moves it by a day at
  most.
* `Zone.Seasons`, `Zone.Regular`: offsets of whole minutes, and two switches a year with days
  between them.
* `isDaylight_of_summer`, `isDaylight_of_winter`: daylight time is in force from each switch forward
  to the next switch back, in whatever years these are.
* `isLeast_summer`, `isLeast_winter`, `isLeast_skipped`: so it is known when a date begins, if its
  midnight falls into daylight time, into standard time, or into the hour that is skipped.
* `exists_season`: and every midnight falls into one of these.
-/

namespace ResourceQuery

/-! ### Yearly moments -/

/-- The first second of a year. -/
def Date.yearSeconds (y : Int) : Int :=
  (daysBeforeYear y - epoch) * daySeconds

theorem Date.yearSeconds_succ (y : Int) :
    yearSeconds y + 365 * daySeconds ≤ yearSeconds (y + 1) := by
  have hlength : 365 ≤ yearLength y := by
    rw [yearLength]
    split <;> decide
  rw [yearSeconds, yearSeconds, daysBeforeYear_succ, daySeconds]
  omega

theorem Date.yearSeconds_mono {y z : Int} (h : y ≤ z) : yearSeconds y ≤ yearSeconds z := by
  have hmono := daysBeforeYear_mono h
  rw [yearSeconds, yearSeconds, daySeconds]
  omega

/-- A second falls in the year of its date. -/
theorem Date.yearSeconds_ofSeconds (s : Int) :
    yearSeconds (ofSeconds s).year ≤ s ∧ s < yearSeconds ((ofSeconds s).year + 1) := by
  have hyear := (ofSeconds s).year_spec
  have hdays : (ofSeconds s).days = s / 86400 := rfl
  rw [yearSeconds, yearSeconds, daySeconds]
  omega

/-- A year that begins less than nine days after the start of another one is no later one. -/
theorem Date.le_of_yearSeconds_lt {y z : Int}
    (h : yearSeconds y < yearSeconds z + 9 * daySeconds) : y ≤ z := by
  by_contra hlater
  have hmono : yearSeconds (z + 1) ≤ yearSeconds y := yearSeconds_mono (by omega)
  have hyear := yearSeconds_succ z
  rw [daySeconds] at h hyear
  omega

/-- From nine days before a year on it is that year, or the one before it, or a later one. -/
theorem Date.le_year_add_one {y t s : Int} (h : yearSeconds y - 9 * daySeconds < t) (hs : t ≤ s) :
    y ≤ (ofSeconds s).year + 1 := by
  have hend := (yearSeconds_ofSeconds s).2
  exact le_of_yearSeconds_lt (by omega)

/-- Up to nine days after a year it is that year, or the one after it, or an earlier one. -/
theorem Date.year_le_add_one {y t s : Int} (h : t < yearSeconds (y + 1) + 9 * daySeconds)
    (hs : s < t) : (ofSeconds s).year ≤ y + 1 := by
  have hbegin := (yearSeconds_ofSeconds s).1
  exact le_of_yearSeconds_lt (by omega)

/-- A second of a date falls on that date. -/
theorem Date.ofSeconds_seconds_add (date : Date) {x : Int} (h : 0 ≤ x) (h' : x < daySeconds) :
    ofSeconds (date.seconds + x) = date := by
  obtain ⟨days⟩ := date
  rw [ofSeconds, seconds, Date.mk.injEq]
  rw [daySeconds] at *
  dsimp only
  omega

/-- Midnight falls in the year of its date. -/
theorem Date.yearSeconds_seconds (date : Date) :
    yearSeconds date.year ≤ date.seconds ∧ date.seconds < yearSeconds (date.year + 1) := by
  have hdate := date.ofSeconds_seconds_add (Int.le_refl 0) (by decide)
  have hyear := yearSeconds_ofSeconds (date.seconds + 0)
  rwa [hdate, Int.add_zero] at hyear

/-- Up to a month, leap years are ahead by a day at most. -/
theorem Date.total_take_monthLengths (leap : Bool) {m : Nat} (h : m < 12) :
    total ((monthLengths false).take m) ≤ total ((monthLengths leap).take m) ∧
      total ((monthLengths leap).take m) ≤ total ((monthLengths false).take m) + 1 := by
  have hleap : ∀ m < 12, total ((monthLengths false).take m) ≤ total ((monthLengths true).take m) ∧
      total ((monthLengths true).take m) ≤ total ((monthLengths false).take m) + 1 := by decide
  cases leap with
  | false => exact ⟨Nat.le_refl _, Nat.le_succ _⟩
  | true => exact hleap m h

namespace Yearly

/-- A day there is in every year, and a whole minute less than a week from its midnight, which is as
far as the rule of a zone may go. -/
structure Sound (r : Yearly) : Prop where
  first : 1 ≤ r.day
  last : r.day ≤ 365
  minutes : r.seconds % 60 = 0
  late : -7 * daySeconds < r.seconds
  early : r.seconds < 7 * daySeconds

variable {r : Yearly}

/-- **Where in its year a yearly moment is.** -/
theorem moment_bounds (sound : r.Sound) (y : Int) :
    Date.yearSeconds y + (r.day - 1) * daySeconds + r.seconds ≤ r.moment y ∧
      r.moment y ≤ Date.yearSeconds y + r.day * daySeconds + r.seconds := by
  have hfirst := sound.first
  have hlast := sound.last
  have hday : r.day - 1 < Date.total (Date.monthLengths false) := by
    show r.day - 1 < 365
    omega
  obtain ⟨hmonth, -, hsum⟩ := Date.monthAndDay_spec hday
  have hleap := Date.total_take_monthLengths (Date.isLeap y) hmonth
  have hmoment : r.moment y = (Date.daysBeforeYear y +
      Date.total ((Date.monthLengths (Date.isLeap y)).take
        (Date.monthAndDay (Date.monthLengths false) (r.day - 1)).1) +
      ((Date.monthAndDay (Date.monthLengths false) (r.day - 1)).2 + 1 : Nat) - 1 - Date.epoch) *
        daySeconds + r.seconds := rfl
  rw [hmoment, Date.yearSeconds, daySeconds]
  omega

theorem moment_minutes (sound : r.Sound) (y : Int) : r.moment y % 60 = 0 := by
  have hminutes := sound.minutes
  obtain ⟨d, hd⟩ : ∃ d : Int, r.moment y = d * 86400 + r.seconds := ⟨_, rfl⟩
  rw [hd]
  omega

end Yearly

namespace Zone

/-! ### Regular zones -/

/-- Less than two days, twice what an offset can be. -/
def NearOffset (o : Int) : Prop :=
  -2 * daySeconds < o ∧ o < 2 * daySeconds

instance (o : Int) : Decidable (NearOffset o) :=
  inferInstanceAs (Decidable (_ ∧ _))

/-- Two offsets of whole minutes, less than a day apart, and two switches a year, from daylight time
back to standard time first.  On the clocks that tell them the switches are two days apart or more,
in each year and across its turn, as are all switches that are three days apart in time. -/
structure Seasons (standard daylight : Int) (start finish : Yearly) : Prop where
  nearStandard : NearOffset standard
  nearDaylight : NearOffset daylight
  standardMinutes : standard % 60 = 0
  daylightMinutes : daylight % 60 = 0
  ahead : standard < daylight
  short : daylight - standard < daySeconds
  soundStart : start.Sound
  soundFinish : finish.Sound
  apart : ∀ y, finish.moment y + 2 * daySeconds ≤ start.moment y
  apartOverTurn : ∀ y, start.moment y + 2 * daySeconds ≤ finish.moment (y + 1)

/-- A zone with one offset, or with two and regular seasons. -/
inductive Regular : Zone → Prop where
  | fixed {o : Int} (near : NearOffset o) : Regular (.fixed o)
  | seasonal {standard daylight : Int} {start finish : Yearly}
      (seasons : Seasons standard daylight start finish) :
      Regular (.seasonal standard daylight start finish)

variable {standard daylight : Int} {start finish : Yearly}

theorem Seasons.finish_mono (h : Seasons standard daylight start finish) {k y : Int} (hk : k ≤ y) :
    finish.moment k ≤ finish.moment y := by
  obtain ⟨n, rfl⟩ := Int.le.dest hk
  clear hk
  induction n with
  | zero => exact Int.le_of_eq (congrArg finish.moment (Int.add_zero k).symm)
  | succ n ih =>
      have hyear := h.apart (k + n)
      have hturn := h.apartOverTurn (k + n)
      rw [daySeconds] at hyear hturn
      rw [Int.natCast_succ, ← Int.add_assoc]
      omega

/-- The switch forward of one year is over when clocks go back in a later one. -/
theorem Seasons.start_before (h : Seasons standard daylight start finish) {k y : Int}
    (hk : k < y) : start.moment k + 2 * daySeconds ≤ finish.moment y :=
  Int.le_trans (h.apartOverTurn k) (h.finish_mono (Int.add_one_le_of_lt hk))

/-! ### Which offset is in force -/

variable {s y : Int}

/-- Where in its year the clocks of a zone are switched, in universal time. -/
theorem Seasons.switch_bounds (h : Seasons standard daylight start finish) (y : Int) :
    (Date.yearSeconds y - 9 * daySeconds < start.moment y - standard ∧
      start.moment y - standard < Date.yearSeconds (y + 1) + 9 * daySeconds) ∧
    Date.yearSeconds y - 9 * daySeconds < finish.moment y - daylight ∧
      finish.moment y - daylight < Date.yearSeconds (y + 1) + 9 * daySeconds := by
  have hyear := Date.yearSeconds_succ y
  have hbounds : ∀ {r : Yearly} {o : Int}, r.Sound → NearOffset o →
      Date.yearSeconds y - 9 * daySeconds < r.moment y - o ∧
        r.moment y - o < Date.yearSeconds (y + 1) + 9 * daySeconds := by
    rintro r o sound ⟨hlow, hhigh⟩
    have hmoment := Yearly.moment_bounds sound y
    have hfirst := sound.first
    have hlast := sound.last
    have hlate := sound.late
    have hearly := sound.early
    rw [daySeconds] at *
    omega
  exact ⟨hbounds h.soundStart h.nearStandard, hbounds h.soundFinish h.nearDaylight⟩

/-- **Daylight time is in force from each switch forward to the next switch back.** -/
theorem isDaylight_of_summer (h : Seasons standard daylight start finish)
    (hlow : start.moment y - standard ≤ s) (hhigh : s < finish.moment (y + 1) - daylight) :
    isDaylight standard daylight start finish s = true := by
  have hshort := h.short
  have hahead := h.ahead
  have hfirst := Date.le_year_add_one (h.switch_bounds y).1.1 hlow
  have hlast := Date.year_le_add_one (h.switch_bounds (y + 1)).2.2 hhigh
  rw [isDaylight]
  generalize (Date.ofSeconds s).year = year at hfirst hlast
  have hyear := h.apart
  rw [daySeconds] at hshort
  -- the season began in a year before the second's, in that year, or in the year after it
  obtain rfl | rfl | rfl | rfl : year = y + 2 ∨ year = y + 1 ∨ year = y ∨ year = y - 1 := by omega
  · have hturn := h.start_before (k := y + 1) (y := y + 2) (by omega)
    have hturn' := hyear (y + 1)
    rw [daySeconds] at hturn hturn'
    rw [show y + 2 - 1 = y + 1 by omega]
    dsimp only
    rw [if_pos (by omega), if_pos (by omega)]
    exact decide_eq_true hhigh
  · rw [show y + 1 - 1 = y by omega]
    dsimp only
    rw [if_pos hhigh, if_neg (by omega)]
  · have hturn := hyear year
    rw [daySeconds] at hturn
    dsimp only
    rw [if_neg (by omega), if_neg (by omega), if_neg (by omega)]
  · have hturn := h.start_before (k := y - 1) (y := y) (by omega)
    have hturn' := hyear y
    have hturn'' := hyear (y - 1)
    rw [daySeconds] at hturn hturn' hturn''
    rw [show y - 1 + 1 = y by omega]
    dsimp only
    rw [if_neg (by omega), if_neg (by omega), if_pos (by omega)]
    exact decide_eq_true hlow

/-- **Standard time is in force from each switch back to the next switch forward.** -/
theorem isDaylight_of_winter (h : Seasons standard daylight start finish)
    (hlow : finish.moment y - daylight ≤ s) (hhigh : s < start.moment y - standard) :
    isDaylight standard daylight start finish s = false := by
  have hshort := h.short
  have hahead := h.ahead
  have hfirst := Date.le_year_add_one (h.switch_bounds y).2.1 hlow
  have hlast := Date.year_le_add_one (h.switch_bounds y).1.2 hhigh
  rw [isDaylight]
  generalize (Date.ofSeconds s).year = year at hfirst hlast
  have hyear := h.apart
  rw [daySeconds] at hshort
  obtain rfl | rfl | rfl : year = y + 1 ∨ year = y ∨ year = y - 1 := by omega
  · have hturn := h.start_before (k := y) (y := y + 1) (by omega)
    rw [daySeconds] at hturn
    rw [show y + 1 - 1 = y by omega]
    dsimp only
    rw [if_pos (by omega), if_pos (by omega)]
    exact decide_eq_false (by omega)
  · dsimp only
    rw [if_neg (by omega), if_pos hhigh]
  · have hturn := h.start_before (k := y - 1) (y := y) (by omega)
    have hturn' := hyear (y - 1)
    rw [daySeconds] at hturn hturn'
    rw [show y - 1 + 1 = y by omega]
    dsimp only
    rw [if_neg (by omega), if_neg (by omega), if_pos hlow]
    exact decide_eq_false (by omega)

theorem offsetAt_of_summer (h : Seasons standard daylight start finish)
    (hlow : start.moment y - standard ≤ s) (hhigh : s < finish.moment (y + 1) - daylight) :
    (seasonal standard daylight start finish).offsetAt s = daylight :=
  if_pos (isDaylight_of_summer h hlow hhigh)

theorem offsetAt_of_winter (h : Seasons standard daylight start finish)
    (hlow : finish.moment y - daylight ≤ s) (hhigh : s < start.moment y - standard) :
    (seasonal standard daylight start finish).offsetAt s = standard :=
  if_neg (Bool.eq_false_iff.mp (isDaylight_of_winter h hlow hhigh))

theorem offsetAt_le (h : Seasons standard daylight start finish) (s : Int) :
    (seasonal standard daylight start finish).offsetAt s ≤ daylight := by
  have hahead := h.ahead
  rw [offsetAt]
  split
  · exact Int.le_refl _
  · omega

/-! ### When a date begins -/

variable {z : Zone} {date : Date}

theorem dateAt_eq_iff : z.dateAt s = date ↔
    date.seconds ≤ s + z.offsetAt s ∧ s + z.offsetAt s < date.seconds + daySeconds := by
  obtain ⟨days⟩ := date
  rw [dateAt, Date.ofSeconds, Date.mk.injEq, Date.seconds, daySeconds]
  dsimp only
  omega

/-- A second at which a date is shown, and before which only earlier dates are, is its first. -/
theorem isLeast_of_shown {t : Int} (shown : z.dateAt t = date)
    (before : ∀ s < t, s + z.offsetAt s < date.seconds) : IsLeast {s | z.dateAt s = date} t := by
  refine ⟨shown, fun s hs => Int.not_lt.mp fun hlt => ?_⟩
  have hearlier := before s hlt
  have hshown := (dateAt_eq_iff.mp hs).1
  omega

theorem isLeast_fixed (o : Int) (date : Date) :
    IsLeast {s | (fixed o).dateAt s = date} (date.seconds - o) := by
  refine isLeast_of_shown (dateAt_eq_iff.mpr ?_) fun s hs => ?_
  · rw [offsetAt, daySeconds]
    omega
  · rw [offsetAt]
    omega

variable (h : Seasons standard daylight start finish)
include h

/-- **A date whose midnight falls into daylight time begins at that midnight.** -/
theorem isLeast_summer (hlow : start.moment y + (daylight - standard) ≤ date.seconds)
    (hhigh : date.seconds < finish.moment (y + 1)) :
    IsLeast {s | (seasonal standard daylight start finish).dateAt s = date}
      (date.seconds - daylight) := by
  have hoffset : (seasonal standard daylight start finish).offsetAt (date.seconds - daylight) =
      daylight := offsetAt_of_summer h (y := y) (by omega) (by omega)
  refine isLeast_of_shown (dateAt_eq_iff.mpr ?_) fun s hs => ?_
  · rw [hoffset, daySeconds]
    omega
  · have hmost := offsetAt_le h s
    omega

/-- **A date whose midnight falls into standard time begins at that midnight.** -/
theorem isLeast_winter (hlow : finish.moment y ≤ date.seconds)
    (hhigh : date.seconds < start.moment y) :
    IsLeast {s | (seasonal standard daylight start finish).dateAt s = date}
      (date.seconds - standard) := by
  have hahead := h.ahead
  have hoffset : (seasonal standard daylight start finish).offsetAt (date.seconds - standard) =
      standard := offsetAt_of_winter h (y := y) (by omega) (by omega)
  refine isLeast_of_shown (dateAt_eq_iff.mpr ?_) fun s hs => ?_
  · rw [hoffset, daySeconds]
    omega
  · have hmost := offsetAt_le h s
    -- no later than by the standard clock, and before that not by any
    by_cases hnear : date.seconds - daylight ≤ s
    · rw [offsetAt_of_winter h (y := y) (by omega) (by omega)]
      omega
    · omega

/-- **A date whose midnight is skipped begins when the clocks go forward.** -/
theorem isLeast_skipped (hlow : start.moment y ≤ date.seconds)
    (hhigh : date.seconds < start.moment y + (daylight - standard)) :
    IsLeast {s | (seasonal standard daylight start finish).dateAt s = date}
      (start.moment y - standard) := by
  have hahead := h.ahead
  have hshort := h.short
  have hyear := h.apart y
  have hturn := h.apartOverTurn y
  rw [daySeconds] at hshort hyear hturn
  have hoffset : (seasonal standard daylight start finish).offsetAt (start.moment y - standard) =
      daylight := offsetAt_of_summer h (Int.le_refl _) (by omega)
  refine isLeast_of_shown (dateAt_eq_iff.mpr ?_) fun s hs => ?_
  · rw [hoffset, daySeconds]
    omega
  · have hmost := offsetAt_le h s
    by_cases hnear : date.seconds - daylight ≤ s
    · rw [offsetAt_of_winter h (y := y) (by omega) hs]
      omega
    · omega

/-- Every midnight is in the seasons of some year, from one switch back to the next. -/
theorem exists_season (date : Date) : ∃ y,
    finish.moment y ≤ date.seconds ∧ date.seconds < finish.moment (y + 1) := by
  obtain ⟨hbegin, hend⟩ := date.yearSeconds_seconds
  generalize date.seconds = m at hbegin hend
  generalize date.year = year at hbegin hend
  -- clocks go back within nine days of the year that they go back in
  have hfirst : finish.moment (year - 2) ≤ m := by
    have hnear := h.nearDaylight.2
    have hswitch := (h.switch_bounds (year - 2)).2.2
    have hyear := Date.yearSeconds_succ (year - 1)
    rw [show year - 2 + 1 = year - 1 by omega] at hswitch
    rw [Int.sub_add_cancel] at hyear
    rw [daySeconds] at *
    omega
  have hlast : m < finish.moment (year + 2) := by
    have hnear := h.nearDaylight.1
    have hswitch := (h.switch_bounds (year + 2)).2.1
    have hyear := Date.yearSeconds_succ (year + 1)
    rw [show year + 1 + 1 = year + 2 by omega] at hyear
    rw [daySeconds] at *
    omega
  by_cases hnext : finish.moment (year + 1) ≤ m
  · exact ⟨year + 1, hnext, by rwa [Int.add_assoc]⟩
  by_cases hthis : finish.moment year ≤ m
  · exact ⟨year, hthis, Int.not_le.mp hnext⟩
  by_cases hbefore : finish.moment (year - 1) ≤ m
  · exact ⟨year - 1, hbefore, by rwa [Int.sub_add_cancel, ← Int.not_le]⟩
  · exact ⟨year - 2, hfirst, by
      rwa [show year - 2 + 1 = year - 1 by omega, ← Int.not_le]⟩

end Zone
end ResourceQuery
