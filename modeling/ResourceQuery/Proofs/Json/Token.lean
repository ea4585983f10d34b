import Mathlib.Tactic.SplitIfs
import ResourceQuery.Json.Number
import ResourceQuery.Json.Printer
import ResourceQuery.Json.Token
import ResourceQuery.Proofs.Text.Numeral

/-!
# Json — tokens written and read back

* `quoted?_quoted`: a string is read back from its quoted form, escape by escape.
* `number?_intText`: an integer of 64 bits is read back from its text, where it ends.

A string ends by itself.  A number does not, so that what follows it has to end it (`Ended`).
-/

namespace ResourceQuery.Json

/-! ### Strings -/

theorem hexValue?_hexDigit {n : Nat} (h : n < 16) : Text.hexValue? (Text.hexDigit n) = some n := by
  have hall : ∀ i : Fin 16, Text.hexValue? (Text.hexDigit i) = some i.val := by decide
  exact hall ⟨n, h⟩

/-- The four digits of a character below U+0020. -/
theorem hex4?_control {n : Nat} (h : n < 0x20) :
    hex4? '0' '0' (Text.hexDigit (n / 16)) (Text.hexDigit (n % 16)) = some n := by
  have hhigh := hexValue?_hexDigit (n := n / 16) (by omega)
  have hlow := hexValue?_hexDigit (n := n % 16) (by omega)
  have hzero : Text.hexValue? '0' = some 0 := by decide
  rw [hex4?, hzero, hhigh, hlow]
  show some _ = some n
  congr 1
  omega

/-- A character that is written as it is. -/
theorem stringBody?_raw {c : Char} (hquote : c ≠ '"') (hslash : c ≠ '\\') (hraw : 0x20 ≤ c.toNat)
    (cs : List Char) :
    stringBody? (c :: cs) = (stringBody? cs).map fun (s, r) => (c :: s, r) := by
  rw [stringBody?]
  · rw [if_neg]
    rintro (h | h)
    · exact hslash h
    · omega
  · exact fun h => hquote h
  · intro a b c' d rest h
    exact absurd h hslash
  · intro c' rest h
    exact absurd h hslash

/-- A character that is written with the letter of its escape. -/
theorem stringBody?_short {c e : Char} (h : shortEscape? e = some c) (cs : List Char) :
    stringBody? ('\\' :: e :: cs) = (stringBody? cs).map fun (s, r) => (c :: s, r) := by
  have hletter : e ≠ 'u' := by
    intro hu
    rw [hu, show shortEscape? 'u' = none from by decide] at h
    cases h
  rw [stringBody?, h]
  intro a b c' d rest hcs
  exact absurd hcs hletter

/-- A character below U+0020 that is written with its number. -/
theorem stringBody?_control {c : Char} (h : c.toNat < 0x20) (cs : List Char) :
    stringBody? ('\\' :: 'u' :: '0' :: '0' :: Text.hexDigit (c.toNat / 16) ::
        Text.hexDigit (c.toNat % 16) :: cs) =
      (stringBody? cs).map fun (s, r) => (c :: s, r) := by
  have hleading : isLeading c.toNat = false := by simp [isLeading]; omega
  have htrailing : isTrailing c.toNat = false := by simp [isTrailing]; omega
  rw [stringBody?, hex4?_control h]
  simp [hleading, htrailing, Char.ofNat_toNat]

/-- **A character is read back from the way it stands in a string.** -/
theorem stringBody?_escapeChar (c : Char) (cs : List Char) :
    stringBody? (escapeChar c ++ cs) = (stringBody? cs).map fun (s, r) => (c :: s, r) := by
  -- the short escapes are given by their numbers
  have hof {n : Nat} (h : c.toNat = n) : c = Char.ofNat n := by rw [← h, Char.ofNat_toNat]
  rw [escapeChar]
  split_ifs with hquote hslash hraw hb ht hn hf hr
  · subst hquote
    exact stringBody?_short (by decide) cs
  · subst hslash
    exact stringBody?_short (by decide) cs
  · exact stringBody?_raw hquote hslash hraw cs
  · exact stringBody?_short (by rw [hof hb]; decide) cs
  · exact stringBody?_short (by rw [hof ht]; decide) cs
  · exact stringBody?_short (by rw [hof hn]; decide) cs
  · exact stringBody?_short (by rw [hof hf]; decide) cs
  · exact stringBody?_short (by rw [hof hr]; decide) cs
  · exact stringBody?_control (by omega) cs

/-- **A string is read back from its quoted form, whatever follows it.** -/
theorem stringBody?_escaped (s : List Char) (rest : List Char) :
    stringBody? (s.flatMap escapeChar ++ '"' :: rest) = some (s, rest) := by
  induction s with
  | nil => rw [List.flatMap_nil, List.nil_append, stringBody?]
  | cons c s ih =>
      rw [List.flatMap_cons, List.append_assoc, stringBody?_escapeChar, ih]
      rfl

theorem quoted?_quoted (s : String) (rest : List Char) :
    quoted? (quoted s ++ rest) = some (s, rest) := by
  have hbody : quoted s ++ rest = '"' :: (s.toList.flatMap escapeChar ++ '"' :: rest) := by
    simp [quoted]
  rw [hbody, quoted?, stringBody?_escaped]
  simp

/-! ### Integers -/

/-- The value before `cs` has ended: nothing follows, or a sign that may stand after a value. -/
inductive Ended : List Char → Prop where
  | nil : Ended []
  | comma (cs : List Char) : Ended (',' :: cs)
  | bracket (cs : List Char) : Ended (']' :: cs)
  | brace (cs : List Char) : Ended ('}' :: cs)

theorem Ended.takeWhile_isDigit {cs : List Char} (h : Ended cs) :
    cs.takeWhile Char.isDigit = [] := by
  cases h <;> rfl

theorem Ended.dropWhile_isDigit {cs : List Char} (h : Ended cs) :
    cs.dropWhile Char.isDigit = cs := by
  cases h <;> rfl

theorem Ended.fraction? {cs : List Char} (h : Ended cs) : fraction? cs = some (none, cs) := by
  cases h <;> rfl

theorem Ended.exponent? {cs : List Char} (h : Ended cs) : exponent? cs = some (none, cs) := by
  cases h <;> rfl

theorem whole?_toString (n : Nat) {rest : List Char} (h : Ended rest) :
    whole? ((toString n).toList ++ rest) = some ((toString n).toList, rest) := by
  have hdigits : ∀ c ∈ (toString n).toList, c.isDigit = true :=
    fun c hc => Text.isDigit_of_mem_toString hc
  rw [whole?, List.takeWhile_append_of_pos hdigits, List.dropWhile_append_of_pos hdigits,
    h.takeWhile_isDigit, h.dropWhile_isDigit, List.append_nil]
  split
  · rename_i hnil
    exact absurd hnil (Text.toString_toList_ne_nil n)
  · rename_i hzero
    exact absurd hzero (Text.toString_ne_zero_cons n _ _)
  · rfl

/-- A number is read back from its digits, after a minus sign or none. -/
theorem numeral?_toString (n : Nat) {rest : List Char} (h : Ended rest) :
    numeral? ((toString n).toList ++ rest) = some (⟨false, (toString n).toList, none, none⟩, rest) := by
  have hsign : ∀ cs, (toString n).toList ++ rest ≠ '-' :: cs := by
    obtain ⟨c, ds, hds, hdigit⟩ := Text.exists_cons_toString n
    rw [hds]
    intro cs hcs
    cases hcs
    exact absurd hdigit (by decide)
  rw [numeral?, whole?_toString n h]
  · simp [h.fraction?, h.exponent?]
  · exact hsign

theorem numeral?_minus (n : Nat) {rest : List Char} (h : Ended rest) :
    numeral? ('-' :: ((toString n).toList ++ rest)) =
      some (⟨true, (toString n).toList, none, none⟩, rest) := by
  rw [numeral?, whole?_toString n h]
  simp [h.fraction?, h.exponent?]

/-- Digits alone write an integer, where it is one of 64 bits. -/
theorem number?_of_numeral? {negative : Bool} {digits cs rest : List Char} {j : Json}
    (h : numeral? cs = some (⟨negative, digits, none, none⟩, rest))
    (hj : integer? negative (Text.natOfDigits digits) = some j) : number? cs = some (j, rest) := by
  rw [number?, h]
  simp [Numeral.toJson?, hj]

/-- The integers that a text keeps as integers. -/
def IsWord (n : Int) : Prop :=
  Text.fitsSigned n = true ∨ Text.fitsUnsigned n = true

theorem IsWord.bounds {n : Int} (h : IsWord n) : -(signedCount : Int) ≤ n ∧ n < longCount := by
  simp only [IsWord, Text.fitsSigned, Text.fitsUnsigned, Bool.and_eq_true, decide_eq_true_eq] at h
  have hcounts : signedCount ≤ longCount := by decide
  omega

theorem intText_negSucc (m : Nat) :
    (intText (.negSucc m)).toList = '-' :: (toString (m + 1)).toList := by
  have happend : intText (.negSucc m) = "-" ++ toString (m + 1) := rfl
  rw [happend, String.toList_append]
  rfl

/-- **An integer of 64 bits is read back from its text**, where the text ends. -/
theorem number?_intText {n : Int} (hword : IsWord n) {rest : List Char} (h : Ended rest) :
    number? ((intText n).toList ++ rest) = some (.int n, rest) := by
  obtain ⟨hlow, hhigh⟩ := hword.bounds
  cases n with
  | ofNat m =>
      have hmax : m ≤ maxSignificand := by
        rw [Int.ofNat_eq_natCast] at hhigh
        rw [maxSignificand]
        omega
      refine number?_of_numeral? (numeral?_toString m h) ?_
      rw [Text.natOfDigits_toString]
      simp [integer?, hmax]
  | negSucc m =>
      have hmax : m + 1 ≤ signedCount := by omega
      rw [intText_negSucc, List.cons_append]
      refine number?_of_numeral? (numeral?_minus (m + 1) h) ?_
      rw [Text.natOfDigits_toString, integer?, if_neg (by decide), if_neg (by omega)]
      rfl

end ResourceQuery.Json
