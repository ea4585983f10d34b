/-!
# Text — Substring

The `LIKE` pattern that matches a text containing a given needle.  `%` and `_` are wildcards and
`\` makes the next character literal, so a needle's own `%`, `_` and `\` are escaped.
-/

namespace ResourceQuery.Text

/-- The characters a pattern does not take literally. -/
def isWild (c : Char) : Bool :=
  c == '%' || c == '_' || c == '\\'

/-- `cs` with each wildcard and backslash escaped. -/
def escapeChars : List Char → List Char
  | [] => []
  | c :: cs => if isWild c then '\\' :: c :: escapeChars cs else c :: escapeChars cs

theorem escapeChars_append (cs ds : List Char) :
    escapeChars (cs ++ ds) = escapeChars cs ++ escapeChars ds := by
  induction cs with
  | nil => rfl
  | cons c cs ih => by_cases h : isWild c <;> simp [escapeChars, h, ih]

/-- `needle` as a pattern that matches only itself. -/
def escapePattern (needle : String) : String :=
  String.ofList (escapeChars needle.toList)

/-- The pattern of the texts that contain `needle`. -/
def containsPattern (needle : String) : String :=
  String.ofList ('%' :: escapeChars needle.toList ++ ['%'])

end ResourceQuery.Text
