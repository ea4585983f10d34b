/-!
# Text — Blank

White space in request text is the Unicode property of that name.  A text is trimmed by taking
the white space off both ends; a comma-joined list is cut at its commas, its segments trimmed and
the empty ones left out (`items`).
-/

namespace ResourceQuery.Text

/-- The characters with the Unicode property White_Space. -/
def isBlank (c : Char) : Bool :=
  let n := c.toNat
  (9 ≤ n && n ≤ 13) || n == 0x20 || n == 0x85 || n == 0xA0 || n == 0x1680 ||
    (0x2000 ≤ n && n ≤ 0x200A) || n == 0x2028 || n == 0x2029 || n == 0x202F || n == 0x205F ||
    n == 0x3000

/-- `cs` without the white space it starts with. -/
def dropBlanks (cs : List Char) : List Char :=
  cs.dropWhile isBlank

/-- `cs` without the white space at either end. -/
def trimChars (cs : List Char) : List Char :=
  (dropBlanks (dropBlanks cs).reverse).reverse

/-- `s` without the white space at either end. -/
def trim (s : String) : String :=
  String.ofList (trimChars s.toList)

/-- The segments of `cs` between the occurrences of `sep`; there is always at least one. -/
def segments [DecidableEq α] (sep : α) : List α → List (List α)
  | [] => [[]]
  | c :: cs =>
      if c = sep then [] :: segments sep cs
      else match segments sep cs with
        | [] => [[c]]
        | p :: ps => (c :: p) :: ps

/-- The elements of a comma-joined list: its segments trimmed, the empty ones left out. -/
def items (s : String) : List String :=
  (((segments ',' s.toList).map trimChars).filter (fun p => !p.isEmpty)).map String.ofList

/-- The segments are never none. -/
theorem segments_ne_nil [DecidableEq α] (sep : α) : ∀ cs, segments sep cs ≠ []
  | [] => by simp [segments]
  | c :: cs => by
      unfold segments
      split
      · simp
      · split <;> simp

end ResourceQuery.Text
