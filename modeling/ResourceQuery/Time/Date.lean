import ResourceQuery.Text.Numeral

/-!
# Time — Date

Dates of the proleptic Gregorian calendar, held as days since 1970-01-01.  A date's year is the one
whose days it falls in, and its month the one whose days the rest falls in.  Dates are kept within
`-262143-01-01 … 262142-12-31` (`Date.inRange`).
-/

namespace ResourceQuery

/-- A day, counted from 1970-01-01. -/
structure Date where
  days : Int
  deriving DecidableEq, Repr

namespace Date

/-- The days of the years `0 … y - 1`, counted from 0000-01-01. -/
def daysBeforeYear (y : Int) : Int :=
  365 * y + (y + 3) / 4 - (y + 99) / 100 + (y + 399) / 400

/-- 1970-01-01, counted from 0000-01-01. -/
def epoch : Int := 719528

/-- `y` has a 29 February. -/
def isLeap (y : Int) : Bool :=
  y % 4 == 0 && (y % 100 != 0 || y % 400 == 0)

/-- The lengths of the months of a year. -/
def monthLengths (leap : Bool) : List Nat :=
  [31, if leap then 29 else 28, 31, 30, 31, 30, 31, 31, 30, 31, 30, 31]

/-- The days of a year before its month `m`. -/
def daysBeforeMonth (leap : Bool) (m : Nat) : Nat :=
  ((monthLengths leap).take (m - 1)).foldr (fun l n => l + n) 0

/-- The months left and the days left over once whole months are taken off `n` days. -/
def monthAndDay : List Nat → Nat → Nat × Nat
  | [], n => (0, n)
  | l :: ls, n =>
      if n < l then (0, n) else
        let (m, d) := monthAndDay ls (n - l)
        (m + 1, d)

/-- The year of a date. -/
def year (date : Date) : Int :=
  let n := date.days + epoch
  let y := n * 400 / 146097
  if n < daysBeforeYear y then y - 1
  else if daysBeforeYear (y + 1) ≤ n then y + 1
  else y

/-- The day of the year, from 0. -/
def dayOfYear (date : Date) : Nat :=
  (date.days + epoch - daysBeforeYear date.year).toNat

/-- The month, from 1. -/
def month (date : Date) : Nat :=
  (monthAndDay (monthLengths (isLeap date.year)) date.dayOfYear).1 + 1

/-- The day of the month, from 1. -/
def day (date : Date) : Nat :=
  (monthAndDay (monthLengths (isLeap date.year)) date.dayOfYear).2 + 1

/-- The date of a year, a month and a day of the month that exist. -/
def ofCivil (y : Int) (m d : Nat) : Date :=
  ⟨daysBeforeYear y + daysBeforeMonth (isLeap y) m + d - 1 - epoch⟩

/-- The first date. -/
def first : Date := ofCivil (-262143) 1 1

/-- The last date. -/
def last : Date := ofCivil 262142 12 31

/-- Between the first and the last date. -/
def inRange (date : Date) : Bool :=
  decide (first.days ≤ date.days) && decide (date.days ≤ last.days)

/-- The date of a year, month and day, if there is one in range. -/
def ofCivil? (y : Int) (m d : Nat) : Option Date :=
  let date := ofCivil y m d
  if 1 ≤ m && m ≤ 12 && 1 ≤ d && d ≤ ((monthLengths (isLeap y)).getD (m - 1) 0) && date.inRange
  then some date else none

/-- The date `n` days later, if it is in range. -/
def add? (date : Date) (n : Int) : Option Date :=
  let date' : Date := ⟨date.days + n⟩
  if date'.inRange then some date' else none

/-- A year: four digits, with a sign outside `0 … 9999`. -/
def yearChars (y : Int) : List Char :=
  if 0 ≤ y ∧ y ≤ 9999 then Text.padded 4 y.toNat
  else (if y < 0 then '-' else '+') :: Text.padded 4 y.natAbs

/-- `YYYY-MM-DD`. -/
def chars (date : Date) : List Char :=
  yearChars date.year ++ '-' :: Text.padded 2 date.month ++ '-' :: Text.padded 2 date.day

/-- `YYYY-MM-DD`. -/
def text (date : Date) : String :=
  String.ofList date.chars

end Date
end ResourceQuery
