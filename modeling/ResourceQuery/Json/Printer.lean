import ResourceQuery.Json.Value
import ResourceQuery.Number.Style
import ResourceQuery.Text.Numeral

/-!
# Json — Printer

The two written forms of a document: `compact`, without any white space, and `pretty`, one member
or element a line with two spaces per level.  Strings escape the quote, the backslash and the
characters below U+0020, and nothing else.
-/

namespace ResourceQuery.Json

/-- A character as it stands inside a string. -/
def escapeChar (c : Char) : List Char :=
  if c = '"' then ['\\', '"']
  else if c = '\\' then ['\\', '\\']
  else if 0x20 ≤ c.toNat then [c]
  else if c.toNat = 8 then ['\\', 'b']
  else if c.toNat = 9 then ['\\', 't']
  else if c.toNat = 10 then ['\\', 'n']
  else if c.toNat = 12 then ['\\', 'f']
  else if c.toNat = 13 then ['\\', 'r']
  else ['\\', 'u', '0', '0', Text.hexDigit (c.toNat / 16), Text.hexDigit (c.toNat % 16)]

/-- A string with its quotes. -/
def quoted (s : String) : List Char :=
  '"' :: s.toList.flatMap escapeChar ++ ['"']

/-- The canonical text of an integer or double. -/
def intText (n : Int) : String := toString n

/-- The text of a scalar. -/
def scalarChars : Json → List Char
  | .null => ['n', 'u', 'l', 'l']
  | .bool true => ['t', 'r', 'u', 'e']
  | .bool false => ['f', 'a', 'l', 's', 'e']
  | .int n => (intText n).toList
  | .double d => (Style.json.text d).toList
  | .str s => quoted s
  | .arr _ => []
  | .obj _ => []

mutual

/-- The compact text. -/
def chars : Json → List Char
  | .arr items => '[' :: charsItems items ++ [']']
  | .obj ms => '{' :: charsMembers ms ++ ['}']
  | j => scalarChars j
termination_by structural j => j

/-- The elements of an array, commas between. -/
def charsItems : List Json → List Char
  | [] => []
  | [j] => j.chars
  | j :: js => j.chars ++ ',' :: charsItems js
termination_by structural js => js

/-- The members of an object, commas between. -/
def charsMembers : List (String × Json) → List Char
  | [] => []
  | [(k, j)] => quoted k ++ ':' :: j.chars
  | (k, j) :: ms => quoted k ++ ':' :: j.chars ++ ',' :: charsMembers ms
termination_by structural ms => ms

end

/-- The document without any white space. -/
def compact (j : Json) : String :=
  String.ofList j.chars

/-- The white space that starts a line at a level. -/
def indent (level : Nat) : List Char :=
  '\n' :: List.replicate (2 * level) ' '

mutual

/-- The indented text of a document that starts at `level`. -/
def prettyChars (level : Nat) : Json → List Char
  | .arr [] => ['[', ']']
  | .arr items => '[' :: prettyItems (level + 1) items ++ indent level ++ [']']
  | .obj [] => ['{', '}']
  | .obj ms => '{' :: prettyMembers (level + 1) ms ++ indent level ++ ['}']
  | j => scalarChars j
termination_by structural j => j

/-- The elements of an array, each on its line. -/
def prettyItems (level : Nat) : List Json → List Char
  | [] => []
  | [j] => indent level ++ prettyChars level j
  | j :: js => indent level ++ prettyChars level j ++ ',' :: prettyItems level js
termination_by structural js => js

/-- The members of an object, each on its line. -/
def prettyMembers (level : Nat) : List (String × Json) → List Char
  | [] => []
  | [(k, j)] => indent level ++ quoted k ++ ':' :: ' ' :: prettyChars level j
  | (k, j) :: ms =>
      indent level ++ quoted k ++ ':' :: ' ' :: prettyChars level j ++ ',' :: prettyMembers level ms
termination_by structural ms => ms

end

/-- The document with one member or element a line. -/
def pretty (j : Json) : String :=
  String.ofList (prettyChars 0 j)

end ResourceQuery.Json
