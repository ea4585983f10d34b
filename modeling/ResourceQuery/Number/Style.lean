import ResourceQuery.Number.Shortest

/-!
# Number — Style

The layouts a double is written in.  Both write the shortest digits that read back.

* `Style.json`: positional while the exponent is within `-5 … 15`, always with a point; beyond
  that `d.ddde±x`.  Ties go to the even digit.
* `Style.plain`: always positional, a point only before decimals.  Ties go up.
-/

namespace ResourceQuery

/-- A layout for doubles. -/
structure Style where
  /-- Which of two equally near shortest decimals is written. -/
  tie : Tie
  /-- The exponents of `d.ddd · 10ᵉ` written positionally; all of them if there is no range. -/
  positional : Option (Int × Int)
  /-- Whole numbers end in `.0`. -/
  point : Bool

namespace Style

/-- Doubles inside documents and messages. -/
def json : Style := ⟨.even, some (-5, 15), true⟩

/-- Doubles shown as the text of a cell. -/
def plain : Style := ⟨.up, none, false⟩

/-- The digits `ds` of a decimal with exponent `s`, positionally. -/
def layOut (point : Bool) (ds : List Char) (s : Int) : List Char :=
  if 0 ≤ s then
    ds ++ List.replicate s.toNat '0' ++ (if point then ['.', '0'] else [])
  else
    let k := (-s).toNat
    if k < ds.length then ds.take (ds.length - k) ++ '.' :: ds.drop (ds.length - k)
    else '0' :: '.' :: List.replicate (k - ds.length) '0' ++ ds

/-- The digits `ds` of `d.ddd · 10ᵉ`, with an exponent. -/
def scientific (ds : List Char) (e : Int) : List Char :=
  let head := match ds with
    | d :: r :: rs => d :: '.' :: r :: rs
    | short => short
  head ++ 'e' :: (if e < 0 then '-' else '+') :: (toString e.natAbs).toList

/-- The magnitude of a finite double. -/
def magnitude (st : Style) (d : Double) : List Char :=
  if d.isZero then layOut st.point ['0'] 0
  else
    let x := (d.shortest st.tie).normal
    let ds := (toString x.digits).toList
    let e := x.exponent + ds.length - 1
    match st.positional with
    | some (low, high) =>
        if low ≤ e ∧ e ≤ high then layOut st.point ds x.exponent else scientific ds e
    | none => layOut st.point ds x.exponent

/-- The text of a double. -/
def text (st : Style) (d : Double) : String :=
  if d.isNaN then "NaN"
  else
    let body := if d.isFinite then st.magnitude d else "inf".toList
    String.ofList (if d.negative then '-' :: body else body)

end Style
end ResourceQuery
