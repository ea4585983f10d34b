import ResourceQuery.Number.Power
import ResourceQuery.Text.Blank
import ResourceQuery.Time.Instant

/-!
# Time — Reading

Reading instants from text, in three grammars.

* `rfc3339?`: RFC 3339, with `T`, `t` or a space between date and time, `Z`, `z` or an offset of
  less than a day, any number of decimals (nanoseconds are kept) and `:60` for a leap second.
* `bareDate?`: a year, month and day with hyphens between, at midnight.  The month and the day may
  have one digit, an unsigned year one to four, a signed year any number, and white space may stand
  before each.
* `looseDateTime?`: what a text cell of a store may hold besides: a bare date, a space or `T`, hours
  and minutes, seconds with decimals if any, and `Z` or an offset if any.

The offset's minus may be the hyphen or U+2212.
-/

namespace ResourceQuery.Time

/-- A calendar date and a time of day as read. -/
structure Parts where
  year : Int := 0
  month : Nat := 0
  day : Nat := 0
  hour : Nat := 0
  minute : Nat := 0
  second : Nat := 0
  nanos : Nat := 0

/-- The instant at which clocks `offset` seconds ahead of universal time show `p`. -/
def Parts.toInstant? (p : Parts) (offset : Int) : Option Instant :=
  match Date.ofCivil? p.year p.month p.day with
  | none => none
  | some date =>
      if p.hour < 24 && p.minute < 60 && p.second ≤ 60 then
        let leap := p.second / 60
        let t : Instant :=
          ⟨date.seconds + (p.hour * 3600 + p.minute * 60 + (p.second - leap) : Nat) - offset,
            p.nanos + leap * 1000000000⟩
        if t.inRange then some t else none
      else none

/-- Exactly `n` digits. -/
def exactly? (n : Nat) (cs : List Char) : Option (Nat × List Char) :=
  if cs.length < n then none
  else (Text.nat? (cs.take n)).map fun v => (v, cs.drop n)

/-- At least one digit and at most `n`. -/
def upTo? (n : Nat) (cs : List Char) : Option (Nat × List Char) :=
  let ds := (cs.takeWhile Char.isDigit).take n
  (Text.nat? ds).map fun v => (v, cs.drop ds.length)

/-- The character `c`. -/
def char? (c : Char) : List Char → Option (List Char)
  | d :: cs => if d = c then some cs else none
  | [] => none

/-- Decimals of a second, at least one; nanoseconds are kept and further digits passed over. -/
def decimals? (cs : List Char) : Option (Nat × List Char) :=
  let ds := cs.takeWhile Char.isDigit
  let kept := ds.take 9
  (Text.nat? kept).map fun v => (v * tenPow (9 - kept.length), cs.drop ds.length)

/-- `.` and decimals, or nothing. -/
def fraction? : List Char → Option (Nat × List Char)
  | '.' :: cs => decimals? cs
  | cs => some (0, cs)

/-- The sign of an offset. -/
def offsetSign? : List Char → Option (Int × List Char)
  | [] => none
  | c :: cs =>
      if c = '+' then some (1, cs)
      else if c = '-' ∨ c.toNat = 0x2212 then some (-1, cs)
      else none

/-- `±hh`, then what `between` takes, then `mm`: seconds ahead of universal time. -/
def offset? (between : List Char → Option (List Char)) (cs : List Char) :
    Option (Int × List Char) := do
  let (sign, cs) ← offsetSign? cs
  let (hours, cs) ← exactly? 2 cs
  let cs ← between cs
  let (minutes, cs) ← exactly? 2 cs
  if 59 < minutes then none else some (sign * (hours * 3600 + minutes * 60 : Nat), cs)

/-- `Z` of either case, or an offset of less than a day with a colon. -/
def rfcOffset? : List Char → Option (Int × List Char)
  | [] => none
  | c :: cs =>
      if c = 'Z' ∨ c = 'z' then some (0, cs)
      else match offset? (char? ':') (c :: cs) with
        | some (o, r) => if o.natAbs < 86400 then some (o, r) else none
        | none => none

/-- The mark between date and time. -/
def rfcMark? : List Char → Option (List Char)
  | [] => none
  | c :: cs => if c = 'T' ∨ c = 't' ∨ c = ' ' then some cs else none

/-- The instant an RFC 3339 text writes. -/
def rfc3339? (cs : List Char) : Option Instant := do
  let (year, cs) ← exactly? 4 cs
  let cs ← char? '-' cs
  let (month, cs) ← exactly? 2 cs
  let cs ← char? '-' cs
  let (day, cs) ← exactly? 2 cs
  let cs ← rfcMark? cs
  let (hour, cs) ← exactly? 2 cs
  let cs ← char? ':' cs
  let (minute, cs) ← exactly? 2 cs
  let cs ← char? ':' cs
  let (second, cs) ← exactly? 2 cs
  let (nanos, cs) ← fraction? cs
  let (offset, cs) ← rfcOffset? cs
  if cs.isEmpty then
    (Parts.mk year month day hour minute second nanos).toInstant? offset
  else none

/-- A year: any number of digits after a sign, up to four without one. -/
def looseYear? (cs : List Char) : Option (Int × List Char) :=
  match Text.dropBlanks cs with
  | '-' :: r => (upTo? r.length r).map fun (v, r) => (-(v : Int), r)
  | '+' :: r => (upTo? r.length r).map fun (v, r) => ((v : Int), r)
  | r => (upTo? 4 r).map fun (v, r) => ((v : Int), r)

/-- One or two digits, white space in front. -/
def looseTwo? (cs : List Char) : Option (Nat × List Char) :=
  upTo? 2 (Text.dropBlanks cs)

/-- The date a text starts with. -/
def looseDate? (cs : List Char) : Option (Parts × List Char) := do
  let (year, cs) ← looseYear? cs
  let cs ← char? '-' cs
  let (month, cs) ← looseTwo? cs
  let cs ← char? '-' cs
  let (day, cs) ← looseTwo? cs
  return ({ year, month, day }, cs)

/-- Midnight of the date that is all of the text. -/
def bareDate? (cs : List Char) : Option Instant := do
  let (p, cs) ← looseDate? cs
  if cs.isEmpty then p.toInstant? 0 else none

/-- Hours and minutes, and seconds with decimals if `seconds` asks for them. -/
def looseClock? (seconds : Bool) (p : Parts) (cs : List Char) : Option (Parts × List Char) := do
  let (hour, cs) ← looseTwo? cs
  let cs ← char? ':' cs
  let (minute, cs) ← looseTwo? cs
  if seconds then
    let cs ← char? ':' cs
    let (second, cs) ← looseTwo? cs
    let (nanos, cs) ← fraction? cs
    return ({ p with hour, minute, second, nanos }, cs)
  else return ({ p with hour, minute }, cs)

/-- What a loose date and time ends in. -/
inductive Ending where
  | nothing
  | zulu
  | offset

/-- Colons and white space between the hours and minutes of an offset. -/
def looseBetween (cs : List Char) : Option (List Char) :=
  some (cs.dropWhile fun c => c == ':' || Text.isBlank c)

/-- The instant of `p` under the rest of the text: an offset of a day or more is passed over. -/
def Ending.instant? (p : Parts) (cs : List Char) : Ending → Option Instant
  | .nothing => if cs.isEmpty then p.toInstant? 0 else none
  | .zulu => if cs == ['Z'] then p.toInstant? 0 else none
  | .offset => do
      let (o, r) ← offset? looseBetween (Text.dropBlanks cs)
      if !r.isEmpty then none
      else if o.natAbs < 86400 then (p.toInstant? o).or (p.toInstant? 0)
      else p.toInstant? 0

/-- One form of a loose date and time. -/
def looseForm? (mark seconds : Bool) (ending : Ending) (cs : List Char) : Option Instant := do
  let (p, cs) ← looseDate? cs
  let cs ← if mark then char? 'T' cs else some (Text.dropBlanks cs)
  let (p, cs) ← looseClock? seconds p cs
  ending.instant? p cs

/-- The instant of a loose date and time. -/
def looseDateTime? (cs : List Char) : Option Instant :=
  [false, true].findSome? fun mark =>
    [true, false].findSome? fun seconds =>
      [Ending.nothing, .zulu, .offset].findSome? fun ending => looseForm? mark seconds ending cs

/-- The instant a text cell writes. -/
def ofCellText? (s : String) : Option Instant :=
  (rfc3339? s.toList).or (looseDateTime? s.toList)

/-- The instant a request writes: RFC 3339 or a bare date. -/
def ofRequestText? (s : String) : Option Instant :=
  (rfc3339? s.toList).or (bareDate? s.toList)

end ResourceQuery.Time
