import ResourceQuery.Time.Instant

/-!
# Time — Zone

Local time.  A zone is a fixed offset from universal time, or two offsets with a daylight season
that runs from a day of one year across the turn of the year to a day of the next.  Days of the
year are counted as in a year of 365 days, so that 29 February is passed over.

A local time may be shown once, never (clocks went forward over it) or twice (clocks went back over
it); `readings` gives the offsets it is shown under.  The hour clocks go back over counts as shown
twice up to and including the moment they go back.  `startOfDay` is the first whole minute of a
date that is shown at all.
-/

namespace ResourceQuery

/-- A yearly moment: a day of a 365-day year, from 1, and seconds after its midnight. -/
structure Yearly where
  day : Nat
  seconds : Int
  deriving DecidableEq, Repr

/-- The local time of a place; offsets are seconds ahead of universal time. -/
inductive Zone where
  | fixed (offset : Int)
  /-- Clocks go from `standard` to `daylight` at `start`, told in standard time, and back at
  `finish`, told in daylight time. -/
  | seasonal (standard daylight : Int) (start finish : Yearly)
  deriving DecidableEq, Repr

/-- Universal time as local time. -/
def Zone.utc : Zone := .fixed 0

/-- The moment of a year, in seconds since 1970-01-01T00:00:00 on the clock that tells it. -/
def Yearly.moment (r : Yearly) (year : Int) : Int :=
  let (m, d) := Date.monthAndDay (Date.monthLengths false) (r.day - 1)
  (Date.ofCivil year (m + 1) (d + 1)).seconds + r.seconds

/-- What a zone makes of a local time. -/
inductive Reading where
  | never
  | once (offset : Int)
  | twice (first second : Int)
  deriving DecidableEq, Repr

namespace Zone

/-- Whether daylight time is in force at a moment of universal time. -/
def isDaylight (standard daylight : Int) (start finish : Yearly) (s : Int) : Bool :=
  let year := (Date.ofSeconds s).year
  let starts := fun y => start.moment y - standard
  let ends := fun y => finish.moment y - daylight
  if s < ends year then
    if s < starts (year - 1) then decide (s < ends (year - 1)) else true
  else if s < starts year then false
  else if ends (year + 1) ≤ s then decide (starts (year + 1) ≤ s)
  else true

/-- The offset in force at a moment of universal time. -/
def offsetAt : Zone → Int → Int
  | .fixed o, _ => o
  | .seasonal standard daylight start finish, s =>
      if isDaylight standard daylight start finish s then daylight else standard

/-- The local date at a moment of universal time. -/
def dateAt (z : Zone) (s : Int) : Date :=
  Date.ofSeconds (s + z.offsetAt s)

/-- The offsets a local time is shown under, the standard one first. -/
def readings : Zone → Int → Reading
  | .fixed o, _ => .once o
  | .seasonal standard daylight start finish, s =>
      let year := (Date.ofSeconds s).year
      let shift := daylight - standard
      let starts := start.moment year
      let ends := finish.moment year
      if s < ends - shift then .once daylight
      else if s ≤ ends then .twice standard daylight
      else if s < starts then .once standard
      else if s < starts + shift then .never
      else .once daylight

/-- The moment of universal time a local time is read as: under the first offset it is shown under,
provided every reading is in range. -/
def resolve? (z : Zone) (s : Int) : Option Int :=
  match z.readings s with
  | .never => none
  | .once o => if (Instant.mk (s - o) 0).inRange then some (s - o) else none
  | .twice o o' =>
      if (Instant.mk (s - o) 0).inRange && (Instant.mk (s - o') 0).inRange then some (s - o)
      else none

/-- The first minute of a date that is shown in a zone, as a moment of universal time. -/
def startOfDay? (z : Zone) (date : Date) : Option Int :=
  (List.range (24 * 60)).findSome? fun (minute : Nat) => z.resolve? (date.seconds + 60 * minute)

end Zone
end ResourceQuery
