import ResourceQuery.Json.Value
import ResourceQuery.Text.Numeral

/-!
# Json — Token

The tokens of strict JSON that have a text: white space is only spaces, tabs, line feeds and carriage
returns, a string has no raw control character and no lone surrogate escape, and three words stand
for values.
-/

namespace ResourceQuery.Json

/-- White space between tokens. -/
def isSpace (c : Char) : Bool :=
  c == ' ' || c == '\t' || c == '\n' || c == '\r'

/-- `cs` without the white space it starts with. -/
def skipSpace (cs : List Char) : List Char :=
  cs.dropWhile isSpace

/-- The number four hexadecimal digits write. -/
def hex4? (a b c d : Char) : Option Nat := do
  let w ← Text.hexValue? a
  let x ← Text.hexValue? b
  let y ← Text.hexValue? c
  let z ← Text.hexValue? d
  return ((w * 16 + x) * 16 + y) * 16 + z

/-- The character of a one-letter escape. -/
def shortEscape? (c : Char) : Option Char :=
  if c = '"' ∨ c = '\\' ∨ c = '/' then some c
  else if c = 'b' then some (Char.ofNat 8)
  else if c = 't' then some '\t'
  else if c = 'n' then some '\n'
  else if c = 'f' then some (Char.ofNat 12)
  else if c = 'r' then some '\r'
  else none

/-- The first half of a surrogate pair. -/
def isLeading (n : Nat) : Bool := 0xD800 ≤ n && n ≤ 0xDBFF

/-- The second half of a surrogate pair. -/
def isTrailing (n : Nat) : Bool := 0xDC00 ≤ n && n ≤ 0xDFFF

/-- The character of a surrogate pair. -/
def surrogatePair (hi lo : Nat) : Char :=
  Char.ofNat (0x10000 + (hi - 0xD800) * 0x400 + (lo - 0xDC00))

/-- The characters of a string whose opening quote has been read, and what follows its closing
quote. -/
def stringBody? : List Char → Option (List Char × List Char)
  | [] => none
  | '"' :: rest => some ([], rest)
  | '\\' :: 'u' :: a :: b :: c :: d :: rest =>
      match hex4? a b c d with
      | none => none
      | some n =>
          if isTrailing n then none
          else if isLeading n then
            match rest with
            | '\\' :: 'u' :: e :: f :: g :: h :: rest' =>
                match hex4? e f g h with
                | none => none
                | some m =>
                    if isTrailing m then
                      (stringBody? rest').map fun (s, r) => (surrogatePair n m :: s, r)
                    else none
            | _ => none
          else (stringBody? rest).map fun (s, r) => (Char.ofNat n :: s, r)
  | '\\' :: c :: rest =>
      match shortEscape? c with
      | none => none
      | some e => (stringBody? rest).map fun (s, r) => (e :: s, r)
  | c :: rest =>
      if c = '\\' ∨ c.toNat < 0x20 then none
      else (stringBody? rest).map fun (s, r) => (c :: s, r)
termination_by structural cs => cs

/-- A string, from its opening quote on. -/
def quoted? : List Char → Option (String × List Char)
  | '"' :: cs => (stringBody? cs).map fun (s, r) => (String.ofList s, r)
  | _ => none

/-- The words that stand for values. -/
def literals : List (List Char × Json) :=
  [(['n', 'u', 'l', 'l'], .null), (['t', 'r', 'u', 'e'], .bool true),
    (['f', 'a', 'l', 's', 'e'], .bool false)]

/-- The value of the word `cs` starts with, and what follows it. -/
def literal? (cs : List Char) : Option (Json × List Char) :=
  (literals.find? fun w => w.1.isPrefixOf cs).map fun w => (w.2, cs.drop w.1.length)

end ResourceQuery.Json
