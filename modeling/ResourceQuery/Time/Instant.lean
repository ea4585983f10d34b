import ResourceQuery.Time.Date

/-!
# Time — Instant

Instants of universal time: whole seconds since 1970-01-01T00:00:00Z, rounded down, and
nanoseconds.  During a leap second the nanoseconds run from `10⁹` on.

`Instant.text` writes RFC 3339 with 0, 3, 6 or 9 decimals, whichever is the fewest that keeps the
instant.
-/

namespace ResourceQuery

/-- An instant of universal time. -/
structure Instant where
  seconds : Int
  nanos : Nat
  deriving DecidableEq, Repr

/-- The seconds of a day. -/
def daySeconds : Int := 86400

/-- The date of a count of seconds since 1970-01-01T00:00:00. -/
def Date.ofSeconds (s : Int) : Date := ⟨s / daySeconds⟩

/-- The first second of a date, counted from 1970-01-01T00:00:00. -/
def Date.seconds (date : Date) : Int := date.days * daySeconds

namespace Instant

/-- The instant's date is one. -/
def inRange (t : Instant) : Bool :=
  (Date.ofSeconds t.seconds).inRange

/-- The instant of a whole second, if it is in range. -/
def ofSeconds? (s : Int) : Option Instant :=
  let t : Instant := ⟨s, 0⟩
  if t.inRange then some t else none

/-- The order of time. -/
def before (a b : Instant) : Bool :=
  decide (a.seconds < b.seconds) || (a.seconds == b.seconds && decide (a.nanos < b.nanos))

/-- The decimals of the second: none, or the first of 3, 6 and 9 places that holds them all. -/
def fractionChars (nanos : Nat) : List Char :=
  if nanos = 0 then []
  else if nanos % 1000000 = 0 then '.' :: Text.padded 3 (nanos / 1000000)
  else if nanos % 1000 = 0 then '.' :: Text.padded 6 (nanos / 1000)
  else '.' :: Text.padded 9 nanos

/-- `hh:mm:ss` and the decimals; a leap second is written `:60`. -/
def clockChars (ofDay nanos : Nat) : List Char :=
  let leap := nanos / 1000000000
  Text.padded 2 (ofDay / 3600) ++ ':' :: Text.padded 2 (ofDay / 60 % 60) ++
    ':' :: Text.padded 2 (ofDay % 60 + leap) ++ fractionChars (nanos % 1000000000)

/-- RFC 3339 up to the offset. -/
def bareChars (t : Instant) : List Char :=
  (Date.ofSeconds t.seconds).chars ++ 'T' :: clockChars (t.seconds % daySeconds).toNat t.nanos

/-- RFC 3339 with the offset `+00:00`. -/
def text (t : Instant) : String :=
  String.ofList (t.bareChars ++ ['+', '0', '0', ':', '0', '0'])

/-- RFC 3339 with the offset `Z`. -/
def zuluText (t : Instant) : String :=
  String.ofList (t.bareChars ++ ['Z'])

end Instant
end ResourceQuery
