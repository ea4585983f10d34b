import ResourceQuery.Proofs.Time.Midnight
import ResourceQuery.Time.Span

/-!
# Time — the ends of a relative range

* `anchor?_eq`: a span is anchored on a date if its other end is in range, the earlier end first.
* `startOfDay?_between`: in a regular zone the start of a date is the midnight of one of its two
  clocks, or a moment between them.
* `instants?_between`: so the starts of two dates are whole days apart, give or take how far the
  clocks are, and are never the other way round.
-/

namespace ResourceQuery

variable {z : Zone} {date : Date}

/-! ### Dates -/

namespace Span

/-- The end of a range that is not today. -/
def otherEnd (span : Span) (today : Date) : Date :=
  match span.direction with
  | .last => ⟨today.days - span.days⟩
  | .next => ⟨today.days + span.days⟩

/-- The dates between today and the other end, whether or not that is in range. -/
def dates (span : Span) (today : Date) : DateRange :=
  match span.direction with
  | .last => ⟨span.otherEnd today, today⟩
  | .next => ⟨today, span.otherEnd today⟩

theorem anchor?_eq (span : Span) (today : Date) : span.anchor? today =
    if (span.otherEnd today).inRange then some (span.dates today) else none := by
  obtain ⟨direction, days⟩ := span
  cases direction with
  | last => exact apply_ite (Option.map fun start => DateRange.mk start today) _ _ _
  | next => exact apply_ite (Option.map fun finish => DateRange.mk today finish) _ _ _

/-- The ends are as many days apart as the span has. -/
theorem dates_days (span : Span) (today : Date) :
    (span.dates today).finish.days = (span.dates today).start.days + span.days := by
  obtain ⟨direction, days⟩ := span
  cases direction with
  | last => exact (Int.sub_add_cancel today.days days).symm
  | next => rfl

end Span

/-! ### Instants -/

namespace Zone

/-- The offset of the clock that is the furthest ahead. -/
def foremost : Zone → Int
  | fixed o => o
  | seasonal _ daylight _ _ => daylight

theorem Regular.shift_bounds (regular : z.Regular) : 0 ≤ z.shift ∧ z.shift < daySeconds := by
  have hday : 0 < daySeconds := by decide
  cases regular with
  | fixed => exact ⟨Int.le_refl 0, hday⟩
  | seasonal h => exact ⟨Int.sub_nonneg_of_le (Int.le_of_lt h.ahead), h.short⟩

/-- **The start of a date is between the midnights of the two clocks.** -/
theorem startOfDay?_between (regular : z.Regular) (inland : date.Inland) :
    ∃ t, z.startOfDay? date = some t ∧
      date.seconds - z.foremost ≤ t ∧ t ≤ date.seconds - z.foremost + z.shift := by
  cases regular with
  | fixed near =>
      refine ⟨_, startOfDay?_fixed near inland, ?_⟩
      rw [foremost, shift]
      omega
  | @seasonal standard daylight start finish h =>
      have hahead := h.ahead
      rw [foremost, shift]
      by_cases hbefore : date.seconds < finish.moment date.year - (daylight - standard)
      · exact ⟨_, startOfDay?_daylight h inland (.inl hbefore), by omega⟩
      by_cases hwinter : date.seconds < start.moment date.year
      · exact ⟨_, startOfDay?_standard h inland (Int.not_lt.mp hbefore) hwinter, by omega⟩
      by_cases hskipped : date.seconds < start.moment date.year + (daylight - standard)
      · exact ⟨_, startOfDay?_skipped h inland (Int.not_lt.mp hwinter) hskipped, by omega⟩
      · exact ⟨_, startOfDay?_daylight h inland (.inr (Int.not_lt.mp hskipped)), by omega⟩

end Zone

namespace DateRange

theorem instants?_eq_some_iff {r : DateRange} {low high : Instant} :
    r.instants? z = some (low, high) ↔
      ∃ a b, z.startOfDay? r.start = some a ∧ z.startOfDay? r.finish = some b ∧
        low = ⟨a, 0⟩ ∧ high = ⟨b, 0⟩ := by
  rw [instants?]
  cases z.startOfDay? r.start with
  | none => simp
  | some a =>
      cases z.startOfDay? r.finish with
      | none => simp
      | some b => simp [eq_comm]

/-- **The starts of two dates are in their order, and whole days apart but for the shift.** -/
theorem instants?_between {r : DateRange} {n : Nat} (regular : z.Regular)
    (hstart : r.start.Inland) (hfinish : r.finish.Inland)
    (hdays : r.finish.days = r.start.days + n) :
    ∃ low high, r.instants? z = some (⟨low, 0⟩, ⟨high, 0⟩) ∧ low ≤ high ∧ (low = high ↔ n = 0) ∧
      n * daySeconds - z.shift ≤ high - low ∧ high - low ≤ n * daySeconds + z.shift := by
  obtain ⟨low, hlow, hlow₁, hlow₂⟩ := Zone.startOfDay?_between regular hstart
  obtain ⟨high, hhigh, hhigh₁, hhigh₂⟩ := Zone.startOfDay?_between regular hfinish
  obtain ⟨hshift, hshort⟩ := regular.shift_bounds
  have hinstants : r.instants? z = some (⟨low, 0⟩, ⟨high, 0⟩) :=
    instants?_eq_some_iff.mpr ⟨low, high, hlow, hhigh, rfl, rfl⟩
  refine ⟨low, high, hinstants, ?_⟩
  rw [Date.seconds, daySeconds] at *
  by_cases hzero : n = 0
  · -- one date has one start
    have hdate : r.finish = r.start := by
      rw [hzero] at hdays
      exact congrArg Date.mk (hdays.trans (Int.add_zero _))
    have heq : low = high := Option.some.inj (hlow.symm.trans (hdate ▸ hhigh))
    omega
  · omega

end DateRange

/-- **A relative range has the length of its span and is never inverted.**  It is there exactly if
its other end is in range.  One of its ends is today, and they are as many days apart as the span
has, the earlier one first; and so are the instants that these days start at in a regular zone, give
or take the shift between its clocks. -/
theorem range_in_order (span : Span) (today : Date) :
    ((∃ r, span.anchor? today = some r) ↔ (span.otherEnd today).inRange = true) ∧
    ∀ r, span.anchor? today = some r →
      (span.direction = .last → r.finish = today) ∧ (span.direction = .next → r.start = today) ∧
      r.finish.days = r.start.days + span.days ∧
      ∀ z : Zone, z.Regular → r.start.Inland → r.finish.Inland →
        ∃ low high, r.instants? z = some (⟨low, 0⟩, ⟨high, 0⟩) ∧ low ≤ high ∧
          (low = high ↔ span.days = 0) ∧
          span.days * daySeconds - z.shift ≤ high - low ∧
          high - low ≤ span.days * daySeconds + z.shift := by
  rw [Span.anchor?_eq]
  split
  · rename_i hrange
    refine ⟨⟨fun _ => hrange, fun _ => ⟨_, rfl⟩⟩, fun r hr => ?_⟩
    obtain rfl := Option.some.inj hr
    have hdays := span.dates_days today
    refine ⟨fun hlast => ?_, fun hnext => ?_, hdays, fun z regular hstart hfinish =>
      DateRange.instants?_between regular hstart hfinish hdays⟩
    · rw [Span.dates, hlast]
    · rw [Span.dates, hnext]
  · rename_i hrange
    refine ⟨⟨fun hsome => ?_, fun hother => absurd hother hrange⟩, fun r hr => ?_⟩
    · obtain ⟨r, hr⟩ := hsome
      cases hr
    · cases hr

/-- Two days over the switch forward at midnight are an hour short. -/
theorem range_in_order_overGap :
    Span.anchor? ⟨.next, 2⟩ ⟨20022⟩ = some ⟨⟨20022⟩, ⟨20024⟩⟩ ∧
      Zone.midnightSwitches.Regular ∧ (Date.mk 20022).Inland ∧ (Date.mk 20024).Inland ∧
      ∃ low high, DateRange.instants? ⟨⟨20022⟩, ⟨20024⟩⟩ Zone.midnightSwitches =
          some (⟨low, 0⟩, ⟨high, 0⟩) ∧ low < high ∧ high - low = 2 * daySeconds - 3600 := by
  have hanchor : Span.anchor? ⟨.next, 2⟩ ⟨20022⟩ = some ⟨⟨20022⟩, ⟨20024⟩⟩ := by decide +kernel
  have hstart : (Date.mk 20022).Inland := ⟨by decide +kernel, by decide +kernel⟩
  have hfinish : (Date.mk 20024).Inland := ⟨by decide +kernel, by decide +kernel⟩
  obtain ⟨-, -, -, hinstants⟩ := (range_in_order ⟨.next, 2⟩ ⟨20022⟩).2 _ hanchor
  obtain ⟨low, high, hsome, hle, hzero, -, -⟩ :=
    hinstants _ Zone.midnightSwitches_regular hstart hfinish
  have hvalues : DateRange.instants? ⟨⟨20022⟩, ⟨20024⟩⟩ Zone.midnightSwitches =
      some (⟨1729911600, 0⟩, ⟨1730080800, 0⟩) := by decide +kernel
  refine ⟨hanchor, Zone.midnightSwitches_regular, hstart, hfinish, low, high, hsome, ?_⟩
  rw [hsome] at hvalues
  cases hvalues
  exact ⟨by decide, by decide⟩

end ResourceQuery
