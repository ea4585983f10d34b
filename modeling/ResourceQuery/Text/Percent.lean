import ResourceQuery.Text.Blank
import ResourceQuery.Text.Cut
import ResourceQuery.Text.Numeral

/-!
# Text — Percent

Percent-encoding: `%` and two hexadecimal digits stand for a byte.  A `%` without two digits stands
for itself.

What the bytes decode to has to be UTF-8 (`percentDecode?`).  The names and values of a query are
decoded with less care (`formPairs`): the replacement character takes the place of what is no part
of a character, and `+` stands for a space.
-/

namespace ResourceQuery.Text

/-- The bytes of a percent-encoded text, given its own bytes. -/
def percentBytes : List UInt8 → List UInt8
  | 0x25 :: a :: b :: rest =>
      match hexValue? (Char.ofNat a.toNat), hexValue? (Char.ofNat b.toNat) with
      | some x, some y => UInt8.ofNat (16 * x + y) :: percentBytes rest
      | _, _ => 0x25 :: percentBytes (a :: b :: rest)
  | c :: rest => c :: percentBytes rest
  | [] => []

/-- The byte of an ASCII character. -/
def byte (c : Char) : UInt8 :=
  UInt8.ofNat c.toNat

/-- The bytes of a text. -/
def utf8 (s : String) : List UInt8 :=
  s.toUTF8.toList

/-- The text of some bytes. -/
def ofUtf8? (bs : List UInt8) : Option String :=
  String.fromUTF8? ⟨bs.toArray⟩

/-- The text that a percent-encoded text stands for. -/
def percentDecode? (s : String) : Option String :=
  ofUtf8? (percentBytes (utf8 s))

/-- The character some bytes start with, as a text, and what follows it. -/
def firstChar? (bs : List UInt8) : Option (String × List UInt8) :=
  [1, 2, 3, 4].findSome? fun n => (ofUtf8? (bs.take n)).map fun s => (s, bs.drop n)

/-- The characters of some bytes, the replacement character for each byte that is no part of one.
The first argument bounds their number. -/
def lossyChars : Nat → List UInt8 → List Char
  | 0, _ => []
  | _ + 1, [] => []
  | fuel + 1, b :: bs =>
      match firstChar? (b :: bs) with
      | some (s, rest) => s.toList ++ lossyChars fuel rest
      | none => Char.ofNat 0xFFFD :: lossyChars fuel bs

/-- The text of a name or value of a query. -/
def formDecode (cs : List Char) : String :=
  let bs := percentBytes (utf8 (String.ofList (cs.map fun c => if c = '+' then ' ' else c)))
  String.ofList (lossyChars bs.length bs)

/-- The names and values of a query, in order; a name alone has an empty value. -/
def formPairs (cs : List Char) : List (String × String) :=
  ((segments '&' cs).filter fun p => !p.isEmpty).map fun p =>
    let (name, value) := cutFirst '=' p
    (formDecode name, formDecode (value.getD []))

end ResourceQuery.Text
