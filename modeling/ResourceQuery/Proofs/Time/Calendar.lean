import ResourceQuery.Time.Date

/-!
# Time — the calendar

* `year_spec`: a date falls in its year.
* `monthAndDay_spec`: what whole months are taken off, and what is left, add up.
* `ofCivil_civil`: a date is that of its year, month and day.
* `civil_lt`: of two dates, the earlier one has the smaller year, or in one year the smaller month,
  or in one month the smaller day.
-/

namespace ResourceQuery.Date

/-! ### Years -/

/-- The days of a year. -/
def yearLength (y : Int) : Nat :=
  if isLeap y then 366 else 365

theorem daysBeforeYear_succ (y : Int) :
    daysBeforeYear (y + 1) = daysBeforeYear y + yearLength y := by
  have hquarter : y % 4 = 0 ∧ (y + 1 + 3) / 4 = (y + 3) / 4 + 1 ∨
      y % 4 ≠ 0 ∧ (y + 1 + 3) / 4 = (y + 3) / 4 := by omega
  have hcentury : y % 100 = 0 ∧ (y + 1 + 99) / 100 = (y + 99) / 100 + 1 ∨
      y % 100 ≠ 0 ∧ (y + 1 + 99) / 100 = (y + 99) / 100 := by omega
  have hcycle : y % 400 = 0 ∧ (y + 1 + 399) / 400 = (y + 399) / 400 + 1 ∨
      y % 400 ≠ 0 ∧ (y + 1 + 399) / 400 = (y + 399) / 400 := by omega
  have hleap : isLeap y = true ↔ y % 4 = 0 ∧ (y % 100 ≠ 0 ∨ y % 400 = 0) := by
    simp [isLeap]
  rw [daysBeforeYear, daysBeforeYear, yearLength]
  split
  · rename_i h
    have := hleap.mp h
    omega
  · rename_i h
    have := mt hleap.mpr h
    omega

/-- **A date falls in its year.** -/
theorem year_spec (date : Date) :
    daysBeforeYear date.year ≤ date.days + epoch ∧
      date.days + epoch < daysBeforeYear (date.year + 1) := by
  rw [year]
  -- the guess from the mean length of a year is off by one at most
  generalize date.days + epoch = n
  split
  · rename_i h
    rw [Int.sub_add_cancel]
    unfold daysBeforeYear at *
    omega
  · split
    · rename_i h
      unfold daysBeforeYear at *
      omega
    · rename_i h h'
      omega

theorem dayOfYear_eq (date : Date) :
    (date.dayOfYear : Int) = date.days + epoch - daysBeforeYear date.year := by
  have h := date.year_spec
  rw [dayOfYear]
  omega

theorem dayOfYear_lt (date : Date) : date.dayOfYear < yearLength date.year := by
  have h := date.year_spec
  have hlength := daysBeforeYear_succ date.year
  have hday := date.dayOfYear_eq
  omega

/-! ### Months -/

/-- The days of some months. -/
def total (ls : List Nat) : Nat :=
  ls.foldr (fun l n => l + n) 0

theorem total_monthLengths (y : Int) : total (monthLengths (isLeap y)) = yearLength y := by
  rw [yearLength]
  cases isLeap y <;> rfl

/-- **The months taken off and the days left over.** -/
theorem monthAndDay_spec : ∀ {ls : List Nat} {n : Nat}, n < total ls →
    (monthAndDay ls n).1 < ls.length ∧
      (monthAndDay ls n).2 < ls.getD (monthAndDay ls n).1 0 ∧
      total (ls.take (monthAndDay ls n).1) + (monthAndDay ls n).2 = n
  | [], n, h => absurd h (Nat.not_lt_zero n)
  | l :: ls, n, h => by
      rw [monthAndDay]
      by_cases hn : n < l
      · rw [if_pos hn]
        exact ⟨Nat.succ_pos _, hn, Nat.zero_add n⟩
      · rw [if_neg hn]
        have hsplit : total (l :: ls) = l + total ls := rfl
        have hrest : n - l < total ls := by omega
        obtain ⟨hmonth, hday, hsum⟩ := monthAndDay_spec hrest
        refine ⟨Nat.succ_lt_succ hmonth, hday, ?_⟩
        show l + total (ls.take (monthAndDay ls (n - l)).1) + (monthAndDay ls (n - l)).2 = n
        omega

/-- What is left over of the days of a year is a day of a month. -/
theorem monthAndDay_dayOfYear (date : Date) :
    date.month ≤ 12 ∧
      date.day ≤ (monthLengths (isLeap date.year)).getD (date.month - 1) 0 ∧
      daysBeforeMonth (isLeap date.year) date.month + date.day = date.dayOfYear + 1 := by
  have hlt := date.dayOfYear_lt
  rw [← total_monthLengths] at hlt
  obtain ⟨hmonth, hday, hsum⟩ := monthAndDay_spec hlt
  refine ⟨hmonth, hday, ?_⟩
  show total ((monthLengths (isLeap date.year)).take _) + (_ + 1) = _
  rw [← Nat.add_assoc]
  exact congrArg (· + 1) hsum

theorem day_le (date : Date) : date.day ≤ 31 := by
  refine Nat.le_trans date.monthAndDay_dayOfYear.2.1 ?_
  have hall : (monthLengths (isLeap date.year)).all (· ≤ 31) = true := by
    cases isLeap date.year <;> rfl
  rw [List.getD_eq_getElem?_getD]
  cases hlength : (monthLengths (isLeap date.year))[date.month - 1]? with
  | none => exact Nat.zero_le 31
  | some l =>
      exact of_decide_eq_true (List.all_eq_true.mp hall l (List.mem_of_getElem? hlength))

/-! ### Dates -/

/-- **A date is that of its year, month and day.** -/
theorem ofCivil_civil (date : Date) : ofCivil date.year date.month date.day = date := by
  have hday := date.dayOfYear_eq
  have hsum := date.monthAndDay_dayOfYear.2.2
  rw [ofCivil]
  refine congrArg Date.mk ?_
  omega

theorem ofCivil?_civil {date : Date} (h : date.inRange = true) :
    ofCivil? date.year date.month date.day = some date := by
  obtain ⟨hmonth, hday, -⟩ := date.monthAndDay_dayOfYear
  have hmonth' : 1 ≤ date.month := Nat.succ_pos _
  have hday' : 1 ≤ date.day := Nat.succ_pos _
  rw [ofCivil?, ofCivil_civil, if_pos]
  simp only [hmonth, hmonth', hday, hday', h, decide_true, Bool.and_self]

/-! ### The order of dates -/

theorem daysBeforeYear_mono {y z : Int} (h : y ≤ z) : daysBeforeYear y ≤ daysBeforeYear z := by
  unfold daysBeforeYear
  omega

/-- From the first day of a year on it is that year or a later one. -/
theorem le_year {date : Date} {y : Int} (h : daysBeforeYear y ≤ date.days + epoch) :
    y ≤ date.year := by
  refine Int.not_lt.mp fun hlt => ?_
  have hmono : daysBeforeYear (date.year + 1) ≤ daysBeforeYear y := daysBeforeYear_mono (by omega)
  have hyear := date.year_spec
  omega

theorem year_mono {a b : Date} (h : a.days ≤ b.days) : a.year ≤ b.year := by
  have hyear := a.year_spec
  exact le_year (by omega)

/-- Of two days of one year, the earlier one is in an earlier month, or an earlier day of the same
month. -/
theorem monthAndDay_lt : ∀ {ls : List Nat} {m n : Nat}, m < n →
    (monthAndDay ls m).1 < (monthAndDay ls n).1 ∨
      (monthAndDay ls m).1 = (monthAndDay ls n).1 ∧ (monthAndDay ls m).2 < (monthAndDay ls n).2
  | [], _, _, h => .inr ⟨rfl, h⟩
  | l :: ls, m, n, h => by
      by_cases hm : m < l
      · by_cases hn : n < l
        · simp [monthAndDay, hm, hn, h]
        · simp [monthAndDay, hm, hn]
      · have hn : ¬ n < l := by omega
        have hrest : m - l < n - l := by omega
        simpa [monthAndDay, hm, hn] using monthAndDay_lt hrest

/-- **The order of dates is that of years, months and days.** -/
theorem civil_lt {a b : Date} (h : a.days < b.days) :
    a.year < b.year ∨ a.year = b.year ∧
      (a.month < b.month ∨ a.month = b.month ∧ a.day < b.day) := by
  rcases Int.lt_or_eq_of_le (year_mono (Int.le_of_lt h)) with hlt | heq
  · exact .inl hlt
  · refine .inr ⟨heq, ?_⟩
    have ha := a.dayOfYear_eq
    have hb := b.dayOfYear_eq
    rw [heq] at ha
    have hday : a.dayOfYear < b.dayOfYear := by omega
    simpa [month, day, heq] using monthAndDay_lt hday

end ResourceQuery.Date
