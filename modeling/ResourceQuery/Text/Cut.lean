/-!
# Text — Cut

Cutting a text in two at a sign, and dropping words from its front.
-/

namespace ResourceQuery.Text

/-- What stands before the first `sep`, and what stands after it if there is one. -/
def cutFirst [DecidableEq α] (sep : α) : List α → List α × Option (List α)
  | [] => ([], none)
  | c :: cs =>
      if c = sep then ([], some cs)
      else
        let (before, after) := cutFirst sep cs
        (c :: before, after)

/-- What stands before the last `sep` if there is one, and what stands after it. -/
def cutLast [DecidableEq α] (sep : α) (cs : List α) : Option (List α) × List α :=
  let (after, before) := cutFirst sep cs.reverse
  (before.map List.reverse, after.reverse)

/-- The parts of a text put together again. -/
theorem cutFirst_join [DecidableEq α] (sep : α) (cs : List α) :
    (cutFirst sep cs).1 ++ ((cutFirst sep cs).2.elim [] (sep :: ·)) = cs := by
  induction cs with
  | nil => rfl
  | cons c cs ih => by_cases h : c = sep <;> simp_all [cutFirst]

/-- `cs` without the first few `w` it starts with, `fuel` at most. -/
def dropRepeated (w : List Char) : Nat → List Char → List Char
  | 0, cs => cs
  | fuel + 1, cs => if w.isPrefixOf cs then dropRepeated w fuel (cs.drop w.length) else cs

/-- `cs` without any `w` it starts with. -/
def dropLeading (w cs : List Char) : List Char :=
  dropRepeated w cs.length cs

end ResourceQuery.Text
