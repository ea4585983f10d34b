/-!
# Config — Limits

The limits a list request is held to.  Lengths of texts count characters, except that sort keys and
filters given as text are measured in bytes.
-/

namespace ResourceQuery

/-- The limits of list requests. -/
structure Limits where
  defaultLimit : UInt32 := 20
  minLimit : UInt32 := 1
  maxLimit : UInt32 := 100
  maxFilterOperations : Nat := 20
  maxStringLength : Nat := 255
  maxArrayLength : Nat := 100
  minSearchLength : Nat := 1
  maxSearchLength : Nat := 100
  maxSortLength : Nat := 50
  maxFilterBytes : Nat := 65536
  deriving DecidableEq, Repr

namespace Limits

/-- The bounds of a page's size are in order. -/
def ordered (l : Limits) : Bool :=
  decide (l.minLimit ≤ l.maxLimit)

/-- The size nearest to `n` within the bounds, if these are in order. -/
def clamp? (l : Limits) (n : UInt32) : Option UInt32 :=
  if l.ordered then some (if n < l.minLimit then l.minLimit else min n l.maxLimit) else none

/-- Within bounds that are in order every size finds a place. -/
theorem exists_clamp? {l : Limits} (h : l.ordered = true) (n : UInt32) :
    ∃ m, l.clamp? n = some m ∧ l.minLimit ≤ m ∧ m ≤ l.maxLimit := by
  have hbounds : l.minLimit ≤ l.maxLimit := of_decide_eq_true h
  refine ⟨_, if_pos h, ?_⟩
  split
  · exact ⟨UInt32.le_refl _, hbounds⟩
  · rename_i hlow
    exact ⟨Std.le_min_iff.mpr ⟨UInt32.not_lt.mp hlow, hbounds⟩, Std.min_le_right⟩

/-- A size within the bounds keeps its place. -/
theorem clamp?_of_within {l : Limits} {n : UInt32} (hlow : l.minLimit ≤ n)
    (hhigh : n ≤ l.maxLimit) : l.clamp? n = some n := by
  have hordered : l.ordered = true := decide_eq_true (UInt32.le_trans hlow hhigh)
  rw [clamp?, if_pos hordered, if_neg (UInt32.not_lt.mpr hlow)]
  exact congrArg some (Std.LawfulOrderLeftLeaningMin.min_eq_left n l.maxLimit hhigh)

end Limits
end ResourceQuery
