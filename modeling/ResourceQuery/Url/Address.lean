import ResourceQuery.Number.Power
import ResourceQuery.Text.Blank
import ResourceQuery.Text.Cut
import ResourceQuery.Text.Numeral

/-!
# Url — Address

The text of an internet address.  One of version 4 has four decimal octets.  One of version 6 has
eight groups of hexadecimal digits, of which the last two may be written as an address of version 4;
in one place two colons may stand for one or more groups of zeros.

A host name whose last label is a number has to be an address of version 4, for which there are more
spellings: fewer numbers, the last of which fills the octets left over, and numbers in octal and
hexadecimal (`isLooseIpv4`).
-/

namespace ResourceQuery.Url

/-- A number from 0 to 255 without a zero in front. -/
def isOctet (cs : List Char) : Bool :=
  cs.length ≤ 3 && (cs.length == 1 || cs.head? != some '0') &&
    match Text.nat? cs with
    | some n => n < 256
    | none => false

/-- An address of version 4. -/
def isIpv4 (cs : List Char) : Bool :=
  let octets := Text.segments '.' cs
  octets.length == 4 && octets.all isOctet

/-- One to four hexadecimal digits. -/
def isGroup (cs : List Char) : Bool :=
  !cs.isEmpty && cs.length ≤ 4 && cs.all fun c => (Text.hexValue? c).isSome

/-- How many groups are written; an address of version 4 at the end counts two, where it may stand
there. -/
def countGroups? (embedded : Bool) : List (List Char) → Option Nat
  | [] => some 0
  | [g] => if isGroup g then some 1 else if embedded && isIpv4 g then some 2 else none
  | g :: gs => if isGroup g then (countGroups? embedded gs).map (· + 1) else none

/-- How many groups a text with colons between them has. -/
def groups? (embedded : Bool) (cs : List Char) : Option Nat :=
  if cs.isEmpty then some 0 else countGroups? embedded (Text.segments ':' cs)

/-- What stands before the first two colons in a row, and what stands after them if there are any. -/
def cutColons : List Char → List Char × Option (List Char)
  | ':' :: ':' :: cs => ([], some cs)
  | [] => ([], none)
  | c :: cs =>
      let (before, after) := cutColons cs
      (c :: before, after)

/-- An address of version 6. -/
def isIpv6 (cs : List Char) : Bool :=
  match cutColons cs with
  | (all, none) => groups? true all == some 8
  | (front, some back) =>
      match groups? false front, groups? true back with
      | some m, some n => m + n ≤ 7
      | _, _ => false

/-- The number that digits of a base of at most 16 write. -/
def baseNumber? (base : Nat) (cs : List Char) : Option Nat :=
  cs.foldlM
    (fun n c => (Text.hexValue? c).bind fun d => if d < base then some (base * n + d) else none) 0

/-- A number: hexadecimal after `0x`, octal after another zero in front, else decimal. -/
def looseNumber? : List Char → Option Nat
  | [] => none
  | ['0'] => some 0
  | '0' :: c :: cs =>
      if c = 'x' ∨ c = 'X' then baseNumber? 16 cs else baseNumber? 8 (c :: cs)
  | cs => baseNumber? 10 cs

/-- The labels of a name; a point at the end does not count. -/
def labels (cs : List Char) : List (List Char) :=
  let ls := Text.segments '.' cs
  if ls.getLast? = some [] then ls.dropLast else ls

/-- The last label of a name is a number. -/
def endsInNumber (cs : List Char) : Bool :=
  match (labels cs).getLast? with
  | some l => (!l.isEmpty && l.all Char.isDigit) || (looseNumber? l).isSome
  | none => false

/-- An address of version 4 in one of its other spellings. -/
def isLooseIpv4 (cs : List Char) : Bool :=
  match ((labels cs).mapM looseNumber?).map List.reverse with
  | some (last :: front) =>
      front.length ≤ 3 && front.all (· < 256) && last < twoPow (8 * (4 - front.length))
  | _ => false

end ResourceQuery.Url
