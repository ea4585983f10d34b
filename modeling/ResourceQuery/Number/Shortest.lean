import ResourceQuery.Number.Double

/-!
# Number — Shortest

The shortest decimal that reads back as a given double.  The reals that round to `m · 2ᵉ` form an
interval around it, its ends included exactly when `m` is even; the shortest decimal has the least
number of digits of any decimal in that interval and is the nearest such decimal to the double.
For each number of digits only the two neighbours of the double on that decimal grid can be it.

Which neighbour an exact tie goes to, and how digits are laid out, is the business of the format
that writes the number (`Style`).
-/

namespace ResourceQuery

/-- The digits `c` and exponent `s` of a decimal `c · 10ˢ`. -/
structure Decimal where
  digits : Nat
  exponent : Int
  deriving DecidableEq, Repr

/-- Where an exact tie between two decimals goes. -/
inductive Tie where
  | even
  | up
  deriving DecidableEq, Repr

namespace Double

/-- The number of decimal digits of `n`, none for zero. -/
def digitCount (n : Nat) : Nat :=
  if n = 0 then 0 else (Nat.toDigits 10 n).length

/-- The decimal order of magnitude: `10ᵖ ≤ n / d < 10ᵖ⁺¹`. -/
def log10Ratio (n d : Nat) : Int :=
  if d ≤ n then (digitCount (n / d) : Int) - 1
  else -(digitCount ((d + n - 1) / n - 1) : Int)

/-- Four times the reals `lo ≤ m · 2ᵉ ≤ hi` that round to a finite double, over `2ᵉ`: the
distance to the next double below is half as large at a power of two. -/
def interval (d : Double) : Nat × Nat × Nat :=
  let m := d.significand
  let below := if d.rank % hiddenBit = 0 ∧ hiddenBit < d.rank then 1 else 2
  (4 * m - below, 4 * m, 4 * m + 2)

/-- The decimal on the grid of step `10ˢ` that lies in the interval and is nearest to the double,
if one does. -/
def onGrid (tie : Tie) (d : Double) (s : Int) : Option Decimal :=
  let (lo, mid, hi) := d.interval
  let up := twoPow d.exponent.toNat * tenPow (-s).toNat
  let step := 4 * twoPow (-d.exponent).toNat * tenPow s.toNat
  let closed := d.significand % 2 == 0
  let holds := fun c : Nat =>
    if closed then decide (lo * up ≤ c * step) && decide (c * step ≤ hi * up)
    else decide (lo * up < c * step) && decide (c * step < hi * up)
  let a := mid * up / step
  let r := mid * up % step
  let lower := decide (2 * r < step) || (2 * r == step && tie == .even && a % 2 == 0)
  match holds a, holds (a + 1) with
  | true, true => some ⟨if lower then a else a + 1, s⟩
  | true, false => some ⟨a, s⟩
  | false, true => some ⟨a + 1, s⟩
  | false, false => none

/-- The shortest decimal that reads back as a finite double other than zero. -/
def shortest (tie : Tie) (d : Double) : Decimal :=
  let p := log10Ratio d.num d.den
  ((List.range 17).findSome? fun (n : Nat) => onGrid tie d (p - n)).getD ⟨d.num, 0⟩

end Double

/-- `c` without its trailing zeros, and how many there were; `fuel` bounds the number of digits. -/
def stripZeros : Nat → Nat → Nat × Nat
  | 0, c => (c, 0)
  | fuel + 1, c =>
      if c % 10 = 0 ∧ c ≠ 0 then
        let (c', z) := stripZeros fuel (c / 10)
        (c', z + 1)
      else (c, 0)

/-- The same decimal with digits that do not end in zero. -/
def Decimal.normal (x : Decimal) : Decimal :=
  let (c, z) := stripZeros 20 x.digits
  ⟨c, x.exponent + z⟩

end ResourceQuery
