import ResourceQuery.Number.Power
import ResourceQuery.Text.Blank
import ResourceQuery.Text.Fold
import ResourceQuery.Text.Numeral
import ResourceQuery.Time.Zone

/-!
# Time — Span

Relative dates such as `last 7 days` or `next 2 weeks`.  A span is a direction and a number of
days; a month counts 30 days.  Anchored on a date it is the range from or to that date, both ends
included, and in a zone the range is the pair of the instants the two days start at.

The words are recognised up to simple case folding.  Which word it was is then told by comparing up
to the case of ASCII letters: a direction that is not `last` is taken as `next`, a unit that is
neither `day` nor `week` as a month.
-/

namespace ResourceQuery

/-- Which way a span reaches from today. -/
inductive Direction where
  | last
  | next
  deriving DecidableEq, Repr

/-- A relative date, not yet anchored. -/
structure Span where
  direction : Direction
  days : Nat
  deriving DecidableEq, Repr

/-- Dates from `start` to `finish`, both included. -/
structure DateRange where
  start : Date
  finish : Date
  deriving DecidableEq, Repr

namespace Span

/-- White space, at least one character of it. -/
def gap? : List Char → Option (List Char)
  | [] => none
  | c :: cs => if Text.isBlank c then some (Text.dropBlanks cs) else none

/-- One of `words` up to simple case folding, as it is written, and what follows it. -/
def word? (words : List (List Char)) (cs : List Char) : Option (List Char × List Char) :=
  words.findSome? fun w =>
    if Text.sameFolded (cs.take w.length) w then some (cs.take w.length, cs.drop w.length) else none

/-- An `s` of any kind, if there is one, is passed over. -/
def dropPlural : List Char → List Char
  | [] => []
  | c :: cs => if Text.foldChar c = 's' then cs else c :: cs

/-- The direction, number and unit of a relative date, as written. -/
def words? (cs : List Char) : Option (List Char × List Char × List Char) := do
  let cs := Text.dropBlanks cs
  let (direction, cs) ← word? ["last".toList, "next".toList] cs
  let cs ← gap? cs
  let number := cs.takeWhile Char.isDigit
  let cs ← gap? (cs.dropWhile Char.isDigit)
  let (unit, cs) ← word? ["day".toList, "week".toList, "month".toList] cs
  if (Text.dropBlanks (dropPlural cs)).isEmpty then some (direction, number, unit) else none

/-- The days of a unit. -/
def unitDays (unit : List Char) : Nat :=
  if Text.sameAscii unit "day".toList then 1
  else if Text.sameAscii unit "week".toList then 7
  else 30

/-- The span a text writes, if its number and its days each fit 64 bits. -/
def parse? (expr : String) : Option Span := do
  let (direction, number, unit) ← words? expr.toList
  let n ← Text.nat? number
  let days := n * unitDays unit
  let direction := if Text.sameAscii direction "last".toList then .last else .next
  if longCount ≤ n ∨ longCount ≤ days then none else some ⟨direction, days⟩

/-- The range a span covers on a date, if its other end is in range. -/
def anchor? (span : Span) (today : Date) : Option DateRange :=
  match span.direction with
  | .last => (today.add? (-span.days)).map fun start => ⟨start, today⟩
  | .next => (today.add? span.days).map fun finish => ⟨today, finish⟩

end Span

/-- The instants the two ends of a range start at, in a zone. -/
def DateRange.instants? (r : DateRange) (z : Zone) : Option (Instant × Instant) := do
  let a ← z.startOfDay? r.start
  let b ← z.startOfDay? r.finish
  return (⟨a, 0⟩, ⟨b, 0⟩)

/-- The current time and the local zone. -/
structure Clock where
  now : Int
  zone : Zone

/-- The local date. -/
def Clock.today (c : Clock) : Date :=
  c.zone.dateAt c.now

/-- The range a relative date covers today. -/
def Clock.range? (c : Clock) (expr : String) : Option DateRange := do
  (← Span.parse? expr).anchor? c.today

end ResourceQuery
