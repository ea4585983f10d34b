import ResourceQuery.Number.Power

/-!
# Number — Double

Doubles are IEEE 754 binary64 numbers, held as their bits and computed with in exact natural
numbers.  A finite double is `± m · 2ᵉ` with a significand `m` below `2⁵³`; `ofRatio` is the double
nearest to a quotient, ties to the even significand, and infinity from halfway past the largest
finite double on.  Reading, multiplying and dividing are `ofRatio` of the exact result, so each
rounds once.
-/

namespace ResourceQuery

/-- An IEEE 754 binary64 number. -/
structure Double where
  bits : UInt64
  deriving DecidableEq, Repr

namespace Double

/-- The weight of the leading bit of a normal significand, which is not stored: `2⁵²`. -/
def hiddenBit : Nat := 4503599627370496

/-- The sign bit. -/
def negative (d : Double) : Bool :=
  decide (signedCount ≤ d.bits.toNat)

/-- The bits without the sign: the magnitude's place in the order of magnitudes. -/
def rank (d : Double) : Nat :=
  d.bits.toNat % signedCount

/-- The rank of infinity. -/
def rankInfinity : Nat :=
  2047 * hiddenBit

/-- Neither infinite nor a NaN. -/
def isFinite (d : Double) : Bool :=
  decide (d.rank < rankInfinity)

/-- Not a number. -/
def isNaN (d : Double) : Bool :=
  decide (rankInfinity < d.rank)

/-- Zero of either sign. -/
def isZero (d : Double) : Bool :=
  d.rank == 0

/-- The significand `m` of a finite double `± m · 2ᵉ`. -/
def significand (d : Double) : Nat :=
  if d.rank < hiddenBit then d.rank else hiddenBit + d.rank % hiddenBit

/-- The exponent `e` of a finite double `± m · 2ᵉ`. -/
def exponent (d : Double) : Int :=
  if d.rank < hiddenBit then -1074 else ((d.rank / hiddenBit : Nat) : Int) - 1075

/-- The numerator of a finite double's magnitude. -/
def num (d : Double) : Nat :=
  d.significand * twoPow d.exponent.toNat

/-- The denominator of a finite double's magnitude. -/
def den (d : Double) : Nat :=
  twoPow (-d.exponent).toNat

/-- The double of a sign and a rank. -/
def ofRank (neg : Bool) (r : Nat) : Double :=
  ⟨UInt64.ofNat (if neg then signedCount + r else r)⟩

/-- `q` or `q + 1`, whichever is nearer to `n / d` for `q = ⌊n / d⌋`; a tie goes to the even one. -/
def roundHalfEven (n d : Nat) : Nat :=
  let q := n / d
  let r := n % d
  if d < 2 * r || (2 * r == d && q % 2 == 1) then q + 1 else q

/-- The binary order of magnitude: `2ˡ ≤ n / d < 2ˡ⁺¹`. -/
def log2Ratio (n d : Nat) : Int :=
  let l : Int := (Nat.log2 n : Int) - (Nat.log2 d : Int)
  if d * twoPow l.toNat ≤ n * twoPow (-l).toNat then l else l - 1

/-- The double nearest to `± n / d`. -/
def ofRatio (neg : Bool) (n d : Nat) : Double :=
  if n = 0 then ofRank neg 0
  else
    let e : Int := max (-1074) (log2Ratio n d - 52)
    let q := roundHalfEven (n * twoPow (-e).toNat) (d * twoPow e.toNat)
    ofRank neg (min rankInfinity ((e + 1074).toNat * hiddenBit + q))

/-- The double nearest to an integer. -/
def ofInt (n : Int) : Double :=
  ofRatio (decide (n < 0)) n.natAbs 1

/-- The double nearest to `± c / 10ᵏ`. -/
def ofDecimal (neg : Bool) (c k : Nat) : Double :=
  ofRatio neg c (tenPow k)

/-- The double nearest to `10ᵏ`. -/
def powerOfTen (k : Nat) : Double :=
  ofRatio false (tenPow k) 1

/-- The opposite. -/
def neg (d : Double) : Double :=
  ofRank (!d.negative) d.rank

/-- The product of two finite doubles. -/
def mul (a b : Double) : Double :=
  ofRatio (a.negative != b.negative) (a.num * b.num) (a.den * b.den)

/-- The quotient of two finite doubles, the second not zero. -/
def div (a b : Double) : Double :=
  ofRatio (a.negative != b.negative) (a.num * b.den) (a.den * b.num)

end Double
end ResourceQuery
