/-!
# Text — Fold

Two notions of equality up to case.  `sameAscii` identifies the ASCII letters of both cases and
nothing else.  `sameFolded` compares with a lower-case ASCII word under simple case folding, where
two letters beyond ASCII join in: the long s `ſ` folds to `s` and the Kelvin sign to `k`.
-/

namespace ResourceQuery.Text

/-- `c` with an ASCII capital made small. -/
def lowerAscii (c : Char) : Char :=
  if 'A' ≤ c && c ≤ 'Z' then Char.ofNat (c.toNat + 32) else c

/-- Equality up to the case of ASCII letters. -/
def sameAscii (a b : List Char) : Bool :=
  a.map lowerAscii == b.map lowerAscii

/-- The simple case folding, on the characters that fold to an ASCII letter. -/
def foldChar (c : Char) : Char :=
  if c.toNat = 0x17F then 's' else if c.toNat = 0x212A then 'k' else lowerAscii c

/-- `w` is the lower-case ASCII word `word` up to simple case folding. -/
def sameFolded (w word : List Char) : Bool :=
  w.map foldChar == word

end ResourceQuery.Text
