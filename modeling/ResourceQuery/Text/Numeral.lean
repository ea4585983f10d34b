import ResourceQuery.Number.Power

/-!
# Text — Numeral

Numerals in ASCII digits: reading a run of digits as a natural number, an optionally signed run as
an integer, and the value of a hexadecimal digit.  Digits of other scripts are not numerals.
-/

namespace ResourceQuery.Text

/-- The value of an ASCII digit. -/
def digitValue (c : Char) : Nat :=
  c.toNat - '0'.toNat

/-- The number a run of digits writes. -/
def natOfDigits (cs : List Char) : Nat :=
  cs.foldl (fun n c => 10 * n + digitValue c) 0

/-- The number `cs` writes, if `cs` is one or more ASCII digits. -/
def nat? (cs : List Char) : Option Nat :=
  if cs.isEmpty || !cs.all Char.isDigit then none else some (natOfDigits cs)

/-- The integer `cs` writes: digits after an optional sign, `+` included. -/
def int? : List Char → Option Int
  | '-' :: cs => (nat? cs).map fun n => -(n : Int)
  | '+' :: cs => (nat? cs).map fun n => (n : Int)
  | cs => (nat? cs).map fun n => (n : Int)

/-- The value of a hexadecimal digit of either case. -/
def hexValue? (c : Char) : Option Nat :=
  if '0' ≤ c && c ≤ '9' then some (c.toNat - '0'.toNat)
  else if 'a' ≤ c && c ≤ 'f' then some (c.toNat - 'a'.toNat + 10)
  else if 'A' ≤ c && c ≤ 'F' then some (c.toNat - 'A'.toNat + 10)
  else none

/-- The lower-case hexadecimal digit of `n < 16`. -/
def hexDigit (n : Nat) : Char :=
  if n < 10 then Char.ofNat ('0'.toNat + n) else Char.ofNat ('a'.toNat + (n - 10))

/-- The decimal digits of `n`, with zeros in front up to `width` places. -/
def padded (width n : Nat) : List Char :=
  let ds := (toString n).toList
  List.replicate (width - ds.length) '0' ++ ds

/-- The integers a signed 64-bit word holds. -/
def fitsSigned (n : Int) : Bool :=
  decide (-(signedCount : Int) ≤ n) && decide (n < signedCount)

/-- The integers an unsigned 64-bit word holds. -/
def fitsUnsigned (n : Int) : Bool :=
  decide (0 ≤ n) && decide (n < longCount)

end ResourceQuery.Text
