import ResourceQuery.Json.Value
import ResourceQuery.Number.Power
import ResourceQuery.Text.Numeral

/-!
# Json — Number

Reading a JSON number.  An integer that fits 64 bits, signed or unsigned, stays an integer; `-0`,
every other integer and everything with a point or an exponent is a double.

The double is read in two roundings.  The digits are gathered into a significand for as long as it
fits 64 bits; further digits of the whole part only raise the exponent and further decimals are
dropped.  Then the significand is scaled by the power of ten left over, in steps of at most `10³⁰⁸`.
A number too large for a double is refused.
-/

namespace ResourceQuery.Json

/-- The largest significand. -/
def maxSignificand : Nat := longCount - 1

/-- The digits read so far, `c · 10ˢ`. -/
structure Scaled where
  significand : Nat
  exponent : Int

/-- Digits of the whole part: those from the first that does not fit on raise the exponent. -/
def Scaled.whole (c : Nat) : List Char → Scaled
  | [] => ⟨c, 0⟩
  | d :: ds =>
      let c' := 10 * c + Text.digitValue d
      if maxSignificand < c' then ⟨c, (d :: ds).length⟩ else whole c' ds

/-- Decimals: those from the first that does not fit on are dropped. -/
def Scaled.decimals (x : Scaled) : List Char → Scaled
  | [] => x
  | d :: ds =>
      let c' := 10 * x.significand + Text.digitValue d
      if maxSignificand < c' then x else decimals ⟨c', x.exponent - 1⟩ ds

/-- `f / 10ᵏ`, dividing by at most `10³⁰⁸` at a time; nothing is left of a double after three
divisions. -/
def shrink : Nat → Double → Nat → Double
  | 0, f, _ => f
  | fuel + 1, f, k =>
      if k ≤ 308 then f.div (Double.powerOfTen k)
      else shrink fuel (f.div (Double.powerOfTen 308)) (k - 308)

/-- The double of a sign and scaled digits; `none` if it is too large. -/
def Scaled.toDouble? (negative : Bool) (x : Scaled) : Option Double :=
  let f := Double.ofInt x.significand
  let magnitude : Option Double :=
    if x.significand = 0 then some f
    else if 308 < x.exponent then none
    else if 0 ≤ x.exponent then
      let g := f.mul (Double.powerOfTen x.exponent.toNat)
      if g.isFinite then some g else none
    else some (shrink 4 f (-x.exponent).toNat)
  magnitude.map fun g => if negative then g.neg else g

/-- The integer of a sign and a magnitude, where it is one. -/
def integer? (negative : Bool) (n : Nat) : Option Json :=
  if !negative then (if n ≤ maxSignificand then some (.int n) else none)
  else if n = 0 ∨ signedCount < n then none else some (.int (-(n : Int)))

/-- The decimals after a point: at least one digit. -/
def fraction? : List Char → Option (Option (List Char) × List Char)
  | '.' :: cs =>
      let ds := cs.takeWhile Char.isDigit
      if ds.isEmpty then none else some (some ds, cs.dropWhile Char.isDigit)
  | cs => some (none, cs)

/-- The digits of an exponent, at least one. -/
def exponentDigits? (cs : List Char) : Option (Nat × List Char) :=
  let ds := cs.takeWhile Char.isDigit
  if ds.isEmpty then none else some (Text.natOfDigits ds, cs.dropWhile Char.isDigit)

/-- The exponent after an `e` of either case. -/
def exponent? : List Char → Option (Option Int × List Char)
  | [] => some (none, [])
  | c :: cs =>
      if c = 'e' ∨ c = 'E' then
        match cs with
        | '-' :: ds => (exponentDigits? ds).map fun (n, r) => (some (-(n : Int)), r)
        | '+' :: ds => (exponentDigits? ds).map fun (n, r) => (some (n : Int), r)
        | ds => (exponentDigits? ds).map fun (n, r) => (some (n : Int), r)
      else some (none, c :: cs)

/-- The whole part: a zero alone or digits that do not start with one. -/
def whole? (cs : List Char) : Option (List Char × List Char) :=
  let ds := cs.takeWhile Char.isDigit
  match ds with
  | [] => none
  | '0' :: _ :: _ => none
  | _ => some (ds, cs.dropWhile Char.isDigit)

/-- A number as written. -/
structure Numeral where
  negative : Bool
  digits : List Char
  decimals : Option (List Char)
  exponent : Option Int
  deriving DecidableEq, Repr

/-- The numeral `cs` starts with, and what follows it. -/
def numeral? (cs : List Char) : Option (Numeral × List Char) := do
  let (negative, cs) := match cs with
    | '-' :: cs => (true, cs)
    | cs => (false, cs)
  let (digits, cs) ← whole? cs
  let (decimals, cs) ← fraction? cs
  let (exponent, cs) ← exponent? cs
  return (⟨negative, digits, decimals, exponent⟩, cs)

namespace Numeral

/-- The double a numeral writes, unless it is too large for one. -/
def toDouble? (n : Numeral) : Option Double :=
  let x := (Scaled.whole 0 n.digits).decimals (n.decimals.getD [])
  Scaled.toDouble? n.negative ⟨x.significand, x.exponent + n.exponent.getD 0⟩

/-- The number a numeral writes. -/
def toJson? (n : Numeral) : Option Json :=
  if n.decimals.isNone ∧ n.exponent.isNone then
    (integer? n.negative (Text.natOfDigits n.digits)).or (n.toDouble?.map Json.double)
  else n.toDouble?.map Json.double

end Numeral

/-- The number `cs` starts with, and what follows it. -/
def number? (cs : List Char) : Option (Json × List Char) := do
  let (n, rest) ← numeral? cs
  return (← n.toJson?, rest)

end ResourceQuery.Json
