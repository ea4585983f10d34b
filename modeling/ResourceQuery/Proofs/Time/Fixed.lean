import ResourceQuery.Proofs.Time.Order
import ResourceQuery.Proofs.Time.Range

/-!
# Time — days in a zone of one offset

* `startOfDay?_fixed_spec`: what the start of a date is read as is within a day of its midnight, and
  in range.
* `instants?_fixed`: so the instants that the ends of a range start at are in its order.
* `startOfDay?_fourDigits`, `year_of_midnight`: a date of a year of four digits starts at its
  midnight, where universal time shows one of these years or the year -1.
-/

namespace ResourceQuery

/-! ### Dates -/

namespace Date

variable {date : Date}

/-- The days of the years that take four digits. -/
theorem days_of_fourDigits (h : 0 ≤ date.year) (h' : date.year ≤ 9999) :
    0 ≤ date.days + epoch ∧ date.days + epoch < 3652425 := by
  have hfirst : daysBeforeYear 0 ≤ daysBeforeYear date.year := daysBeforeYear_mono h
  have hlast : daysBeforeYear (date.year + 1) ≤ daysBeforeYear 10000 :=
    daysBeforeYear_mono (by omega)
  have hends : daysBeforeYear 0 = 0 ∧ daysBeforeYear 10000 = 3652425 := by decide
  have hyear := date.year_spec
  omega

theorem inland_of_fourDigits (h : 0 ≤ date.year) (h' : date.year ≤ 9999) : date.Inland := by
  have hdays := days_of_fourDigits h h'
  have hfirst : first.days + epoch + 2 ≤ 0 := by decide +kernel
  have hlast : 3652425 + 2 ≤ last.days + epoch := by decide +kernel
  constructor <;> omega

end Date

namespace Zone

variable {o s t : Int} {date : Date}

theorem resolve?_fixed_eq_some (h : (fixed o).resolve? s = some t) :
    t = s - o ∧ (Instant.mk t 0).inRange = true := by
  rw [resolve?, readings] at h
  dsimp only at h
  split at h
  · rename_i hrange
    cases h
    exact ⟨rfl, hrange⟩
  · cases h

/-- **What the start of a date is read as**, wherever the date is. -/
theorem startOfDay?_fixed_spec (h : (fixed o).startOfDay? date = some t) :
    date.seconds - o ≤ t ∧ t < date.seconds - o + daySeconds ∧ (Instant.mk t 0).Proper := by
  obtain ⟨minute, hmem, hread⟩ := List.exists_of_findSome?_eq_some h
  obtain ⟨rfl, hrange⟩ := resolve?_fixed_eq_some hread
  have hminute := List.mem_range.mp hmem
  rw [daySeconds]
  exact ⟨by omega, by omega, hrange, Nat.zero_lt_succ _, fun hleap => absurd hleap (by simp)⟩

end Zone

/-! ### Ranges -/

namespace DateRange

variable {r : DateRange} {low high : Instant} {o : Int}

/-- **The ends of a range start in its order.** -/
theorem instants?_fixed (hdates : r.start.days ≤ r.finish.days)
    (h : r.instants? (.fixed o) = some (low, high)) :
    low.Proper ∧ high.Proper ∧ (low = high ∨ low.before high = true) := by
  obtain ⟨a, b, ha, hb, rfl, rfl⟩ := instants?_eq_some_iff.mp h
  obtain ⟨ha₁, ha₂, haproper⟩ := Zone.startOfDay?_fixed_spec ha
  obtain ⟨hb₁, hb₂, hbproper⟩ := Zone.startOfDay?_fixed_spec hb
  refine ⟨haproper, hbproper, ?_⟩
  rcases Int.lt_or_eq_of_le hdates with hlt | heq
  · -- the later date starts no earlier than the earlier one ends
    rw [Date.seconds, daySeconds] at *
    exact .inr (Instant.before_iff.mpr (.inl (show a < b by omega)))
  · have hdate : r.start = r.finish := congrArg Date.mk heq
    rw [hdate, hb] at ha
    cases ha
    exact .inl rfl

end DateRange

/-! ### Years of four digits -/

section FourDigits

variable {o : Int} (behind : -daySeconds < o) (ahead : o < daySeconds) {date : Date}
  (h : 0 ≤ date.year) (h' : date.year ≤ 9999)
include behind ahead h h'

/-- The start of a date of a year of four digits is its midnight. -/
theorem startOfDay?_fourDigits : (Zone.fixed o).startOfDay? date = some (date.seconds - o) := by
  refine Zone.startOfDay?_fixed ⟨?_, ?_⟩ (Date.inland_of_fourDigits h h')
  · rw [daySeconds] at *
    omega
  · rw [daySeconds] at *
    omega

/-- The year that universal time shows at this midnight. -/
theorem year_of_midnight :
    -1 ≤ (Date.ofSeconds (date.seconds - o)).year ∧
      (Date.ofSeconds (date.seconds - o)).year ≤ 9999 := by
  have hdays : (Date.ofSeconds (date.seconds - o)).days = (date.days * 86400 - o) / 86400 := rfl
  have hfour := Date.days_of_fourDigits h h'
  have hminusOne : Date.daysBeforeYear (-1) = -365 := by decide
  rw [daySeconds] at behind ahead
  have hlow : Date.daysBeforeYear (-1) ≤ (Date.ofSeconds (date.seconds - o)).days + Date.epoch := by
    omega
  have hhigh : (Date.ofSeconds (date.seconds - o)).days ≤ date.days := by omega
  exact ⟨Date.le_year hlow, Int.le_trans (Date.year_mono hhigh) h'⟩

end FourDigits

end ResourceQuery
