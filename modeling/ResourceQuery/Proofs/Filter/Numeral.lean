import ResourceQuery.Proofs.Filter.Value
import ResourceQuery.Proofs.Number.Rounding
import ResourceQuery.Proofs.Text.Order

/-!
# Filter — which texts are numbers

* `Numeral`: the grammar of decimal numerals, with the sign, the digits and the number of decimals
  that each of them writes.
* `decimal?_eq_some_iff`: the texts of that grammar are read as numbers, and no others.
* `ofText_eq_iff`: a text is read as a boolean, or as an integer of 64 bits, or as the finite double
  that its numeral rounds to, or else as itself (`ReadAs`).
* `ofText_classified`: whatever it is read as keeps the text, and only the digits of ASCII count.
-/

namespace ResourceQuery

/-- One ASCII digit or more. -/
def Text.Digits (ds : List Char) : Prop :=
  ds ≠ [] ∧ ds.all Char.isDigit = true

/-- Digits, and further digits after a point or none.  What they write is `c / 10ᵏ`. -/
inductive Numeral.Unsigned : List Char → Nat → Nat → Prop where
  | whole {ds : List Char} (digits : Text.Digits ds) : Unsigned ds (Text.natOfDigits ds) 0
  | decimals {ds fs : List Char} (digits : Text.Digits ds) (decimals : Text.Digits fs) :
      Unsigned (ds ++ '.' :: fs) (Text.natOfDigits (ds ++ fs)) fs.length

/-- A decimal numeral, after a minus sign or none.  What it writes is `± c / 10ᵏ`. -/
inductive Numeral : List Char → Bool → Nat → Nat → Prop where
  | plain {ds : List Char} {c k : Nat} (h : Numeral.Unsigned ds c k) : Numeral ds false c k
  | minus {ds : List Char} {c k : Nat} (h : Numeral.Unsigned ds c k) : Numeral ('-' :: ds) true c k

/-- The integer of a sign and a magnitude. -/
def Numeral.signed (negative : Bool) (n : Nat) : Int :=
  if negative then -(n : Int) else n

namespace Scalar

open Text (Digits)

variable {cs ds : List Char} {negative : Bool} {c k : Nat}

/-! ### Numerals -/

/-- What is read after the sign of a numeral. -/
def unsigned? (negative : Bool) (ds : List Char) : Option (Bool × Nat × Nat) :=
  match ds.dropWhile Char.isDigit with
  | [] => (Text.nat? (ds.takeWhile Char.isDigit)).map fun n => (negative, n, 0)
  | '.' :: fs =>
      if (ds.takeWhile Char.isDigit).isEmpty || fs.isEmpty || !fs.all Char.isDigit then none
      else some (negative, Text.natOfDigits (ds.takeWhile Char.isDigit ++ fs), fs.length)
  | _ => none

theorem decimal?_minus (ds : List Char) : decimal? ('-' :: ds) = unsigned? true ds := rfl

theorem decimal?_plain (h : ∀ ds, cs ≠ '-' :: ds) : decimal? cs = unsigned? false cs := by
  unfold decimal?
  split
  rename_i hsign
  split at hsign
  · exact absurd rfl (h _)
  · cases hsign
    rfl

/-- The digits that a text starts with, and what follows them. -/
theorem span_digits (rest : List Char) (h : ds.all Char.isDigit = true)
    (hrest : rest.takeWhile Char.isDigit = []) :
    (ds ++ rest).takeWhile Char.isDigit = ds ∧ (ds ++ rest).dropWhile Char.isDigit = rest := by
  have hall := List.all_eq_true.mp h
  have hjoin := List.takeWhile_append_dropWhile (p := Char.isDigit) (l := rest)
  rw [hrest, List.nil_append] at hjoin
  rw [List.takeWhile_append_of_pos hall, List.dropWhile_append_of_pos hall, hrest, hjoin,
    List.append_nil]
  exact ⟨rfl, rfl⟩

theorem unsigned?_eq_some_iff {neg : Bool} :
    unsigned? negative ds = some (neg, c, k) ↔ neg = negative ∧ Numeral.Unsigned ds c k := by
  constructor
  · intro h
    have hjoin : ds.takeWhile Char.isDigit ++ ds.dropWhile Char.isDigit = ds :=
      List.takeWhile_append_dropWhile
    rw [unsigned?] at h
    split at h
    · rename_i hend
      rw [hend, List.append_nil] at hjoin
      rw [hjoin] at h
      obtain ⟨n, hn, hr⟩ := Option.map_eq_some_iff.mp h
      obtain ⟨hne, hdigits, rfl⟩ := Text.nat?_eq_some_iff.mp hn
      cases hr
      exact ⟨rfl, .whole ⟨hne, hdigits⟩⟩
    · rename_i fs hpoint
      split at h
      · cases h
      · rename_i hparts
        simp only [Bool.or_eq_true, not_or, List.isEmpty_iff, Bool.not_eq_true',
          Bool.not_eq_false] at hparts
        cases h
        rw [hpoint] at hjoin
        have hwhole : Digits (ds.takeWhile Char.isDigit) := ⟨hparts.1.1, List.all_takeWhile⟩
        have hdecimals := Numeral.Unsigned.decimals hwhole ⟨hparts.1.2, hparts.2⟩
        rw [hjoin] at hdecimals
        exact ⟨rfl, hdecimals⟩
    · cases h
  · rintro ⟨rfl, h⟩
    cases h with
    | whole digits =>
        obtain ⟨htake, hdrop⟩ := span_digits [] digits.2 rfl
        rw [List.append_nil] at htake hdrop
        rw [unsigned?, hdrop, htake, Text.nat?_of_digits digits.1 digits.2]
        rfl
    | decimals digits decimals =>
        rename_i ds fs
        obtain ⟨htake, hdrop⟩ := span_digits ('.' :: fs) digits.2 rfl
        rw [unsigned?, hdrop, htake]
        exact if_neg (by simp [digits.1, decimals.1, decimals.2])

/-- A numeral without a sign starts with a digit. -/
theorem exists_cons_of_unsigned (h : Numeral.Unsigned ds c k) :
    ∃ d rest, ds = d :: rest ∧ d.isDigit = true := by
  have hdigits : ∀ {ws : List Char}, Digits ws → ∃ d rest, ws = d :: rest ∧ d.isDigit = true := by
    rintro ws ⟨hne, hall⟩
    obtain ⟨d, rest, rfl⟩ := List.exists_cons_of_ne_nil hne
    exact ⟨d, rest, rfl, List.all_eq_true.mp hall d List.mem_cons_self⟩
  cases h with
  | whole digits => exact hdigits digits
  | decimals digits _ =>
      obtain ⟨d, rest, rfl, hd⟩ := hdigits digits
      exact ⟨d, _, rfl, hd⟩

/-- **The texts that are read as numbers are the decimal numerals.** -/
theorem decimal?_eq_some_iff : decimal? cs = some (negative, c, k) ↔ Numeral cs negative c k := by
  constructor
  · intro h
    by_cases hsign : ∃ ds, cs = '-' :: ds
    · obtain ⟨ds, rfl⟩ := hsign
      obtain ⟨rfl, hds⟩ := unsigned?_eq_some_iff.mp h
      exact .minus hds
    · rw [decimal?_plain fun ds hds => hsign ⟨ds, hds⟩] at h
      obtain ⟨rfl, hcs⟩ := unsigned?_eq_some_iff.mp h
      exact .plain hcs
  · intro h
    cases h with
    | plain h =>
        obtain ⟨d, rest, rfl, hd⟩ := exists_cons_of_unsigned h
        have hsign : ∀ ds, d :: rest ≠ '-' :: ds := by
          intro ds heq
          rw [(List.cons.inj heq).1] at hd
          cases hd
        rw [decimal?_plain hsign]
        exact unsigned?_eq_some_iff.mpr ⟨rfl, h⟩
    | minus h =>
        rw [decimal?_minus]
        exact unsigned?_eq_some_iff.mpr ⟨rfl, h⟩

/-- A text is one numeral at most. -/
theorem numeral_unique {negative' : Bool} {c' k' : Nat} (h : Numeral cs negative c k)
    (h' : Numeral cs negative' c' k') : negative' = negative ∧ c' = c ∧ k' = k := by
  have heq := (decimal?_eq_some_iff.mpr h).symm.trans (decimal?_eq_some_iff.mpr h')
  cases heq
  exact ⟨rfl, rfl, rfl⟩

/-- **The texts that are read as integers.** -/
theorem integer?_eq_some_iff {i : Int} :
    integer? cs = some i ↔ ∃ negative n, Numeral cs negative n 0 ∧
      Text.fitsSigned (Numeral.signed negative n) = true ∧ i = Numeral.signed negative n := by
  constructor
  · intro h
    rw [integer?] at h
    split at h
    · rename_i negative n hnumeral
      obtain ⟨hfits, hi⟩ := Option.ite_none_right_eq_some.mp h
      exact ⟨negative, n, decimal?_eq_some_iff.mp hnumeral, hfits, (Option.some.inj hi).symm⟩
    · cases h
  · rintro ⟨negative, n, hnumeral, hfits, rfl⟩
    rw [integer?, decimal?_eq_some_iff.mpr hnumeral]
    exact if_pos hfits

theorem integer?_eq_none_iff :
    integer? cs = none ↔ ∀ negative n, Numeral cs negative n 0 →
      Text.fitsSigned (Numeral.signed negative n) = false := by
  rw [Option.eq_none_iff_forall_ne_some]
  constructor
  · intro h negative n numeral
    by_contra hfits
    exact h _ (integer?_eq_some_iff.mpr
      ⟨negative, n, numeral, Bool.eq_true_of_not_eq_false hfits, rfl⟩)
  · intro h i hi
    obtain ⟨negative, n, numeral, fits, -⟩ := integer?_eq_some_iff.mp hi
    rw [h negative n numeral] at fits
    cases fits

theorem ofDecimal_rounds (negative : Bool) (c k : Nat) :
    (Double.ofDecimal negative c k).Rounds negative (c / 10 ^ k) := by
  have hrounds := Double.ofRatio_rounds negative c (Text.tenPow_pos k)
  have hpower : (tenPow k : ℚ) = 10 ^ k := Nat.cast_pow 10 k
  rwa [hpower] at hrounds

/-- **The texts that are read as doubles.** -/
theorem double?_eq_some_iff {d : Double} :
    double? cs = some d ↔ ∃ negative c k, Numeral cs negative c k ∧
      d.Rounds negative (c / 10 ^ k) ∧ d.isFinite = true := by
  constructor
  · intro h
    rw [double?] at h
    split at h
    · rename_i negative c k hnumeral
      obtain ⟨hfinite, hd⟩ := Option.ite_none_right_eq_some.mp h
      obtain rfl := Option.some.inj hd
      exact ⟨negative, c, k, decimal?_eq_some_iff.mp hnumeral, ofDecimal_rounds negative c k,
        hfinite⟩
    · cases h
  · rintro ⟨negative, c, k, hnumeral, hrounds, hfinite⟩
    obtain rfl := hrounds.unique (ofDecimal_rounds negative c k)
    rw [double?, decimal?_eq_some_iff.mpr hnumeral]
    exact if_pos hfinite

theorem double?_eq_none_iff :
    double? cs = none ↔ ∀ negative c k (d : Double), Numeral cs negative c k →
      d.Rounds negative (c / 10 ^ k) → d.isFinite = false := by
  rw [Option.eq_none_iff_forall_ne_some]
  constructor
  · intro h negative c k d numeral rounds
    by_contra hfinite
    exact h d (double?_eq_some_iff.mpr
      ⟨negative, c, k, numeral, rounds, Bool.eq_true_of_not_eq_false hfinite⟩)
  · intro h d hd
    obtain ⟨negative, c, k, numeral, rounds, finite⟩ := double?_eq_some_iff.mp hd
    rw [h negative c k d numeral rounds] at finite
    cases finite

/-! ### Texts -/

/-- What a text is read as: a boolean, if it is the word for one in any case; an integer, if it is
the numeral of one that 64 bits hold; a double, if it is any other numeral and rounds to a finite
one; and else the text itself. -/
inductive ReadAs (s : String) : Scalar → Prop where
  | bool {b : Bool} (word : s.toList.map Text.lowerAscii = (toString b).toList) :
      ReadAs s (.bool b s)
  | int {negative : Bool} {n : Nat} (numeral : Numeral s.toList negative n 0)
      (fits : Text.fitsSigned (Numeral.signed negative n) = true) :
      ReadAs s (.int (Numeral.signed negative n) s)
  | float {negative : Bool} {c k : Nat} {d : Double} (numeral : Numeral s.toList negative c k)
      (noInteger : k = 0 → Text.fitsSigned (Numeral.signed negative c) = false)
      (rounds : d.Rounds negative (c / 10 ^ k)) (finite : d.isFinite = true) :
      ReadAs s (.float d s)
  | str (noWord : ∀ b : Bool, s.toList.map Text.lowerAscii ≠ (toString b).toList)
      (noInteger : ∀ negative n, Numeral s.toList negative n 0 →
        Text.fitsSigned (Numeral.signed negative n) = false)
      (noDouble : ∀ negative c k (d : Double), Numeral s.toList negative c k →
        d.Rounds negative (c / 10 ^ k) → d.isFinite = false) :
      ReadAs s (.str s)

theorem sameAscii_toString_iff {b : Bool} :
    Text.sameAscii cs (toString b).toList = true ↔
      cs.map Text.lowerAscii = (toString b).toList := by
  have hlower : (toString b).toList.map Text.lowerAscii = (toString b).toList := by
    cases b <;> decide
  rw [Text.sameAscii, hlower, beq_iff_eq]

/-- A numeral is no word: it starts with a digit or a sign. -/
theorem map_lowerAscii_ne_of_numeral (h : Numeral cs negative c k) (b : Bool) :
    cs.map Text.lowerAscii ≠ (toString b).toList := by
  have hletter : ∃ w ws, (toString b).toList = w :: ws ∧ w.isDigit = false ∧ w ≠ '-' := by
    cases b with
    | true => exact ⟨'t', ['r', 'u', 'e'], rfl, by decide⟩
    | false => exact ⟨'f', ['a', 'l', 's', 'e'], rfl, by decide⟩
  obtain ⟨w, ws, hw, hdigit, hminus⟩ := hletter
  rw [hw]
  cases h with
  | plain h =>
      obtain ⟨d, rest, rfl, hd⟩ := exists_cons_of_unsigned h
      intro heq
      rw [List.map_cons, lowerAscii_of_isDigit hd] at heq
      rw [(List.cons.inj heq).1, hdigit] at hd
      cases hd
  | minus h => exact fun heq => hminus (List.cons.inj heq).1.symm

section

variable {s : String}

theorem ofText_of_word {b : Bool} (word : s.toList.map Text.lowerAscii = (toString b).toList) :
    ofText s = .bool b s := by
  have hword := sameAscii_toString_iff.mpr word
  cases b with
  | true => exact if_pos hword
  | false =>
      have htrue : Text.sameAscii s.toList "true".toList ≠ true := by
        intro h
        have hword' := (sameAscii_toString_iff (b := true)).mp h
        rw [word] at hword'
        exact absurd hword' (by decide)
      rw [ofText, if_neg htrue]
      exact if_pos hword

/-- A text that is no word is read as a number, if it can be. -/
theorem ofText_of_noWord
    (noWord : ∀ b : Bool, s.toList.map Text.lowerAscii ≠ (toString b).toList) :
    ofText s = ((integer? s.toList).map (Scalar.int · s) <|>
      (double? s.toList).map (Scalar.float · s)).getD (.str s) := by
  have htrue : Text.sameAscii s.toList "true".toList ≠ true :=
    fun h => noWord true (sameAscii_toString_iff.mp h)
  have hfalse : Text.sameAscii s.toList "false".toList ≠ true :=
    fun h => noWord false (sameAscii_toString_iff.mp h)
  rw [ofText, if_neg htrue, if_neg hfalse]
  cases integer? s.toList with
  | some n => rfl
  | none => cases double? s.toList <;> rfl

/-- **What a text is read as.** -/
theorem ofText_eq_iff {x : Scalar} : ofText s = x ↔ ReadAs s x := by
  constructor
  · rintro rfl
    by_cases hword : ∃ b : Bool, s.toList.map Text.lowerAscii = (toString b).toList
    · obtain ⟨b, hb⟩ := hword
      rw [ofText_of_word hb]
      exact .bool hb
    · rw [not_exists] at hword
      rw [ofText_of_noWord hword]
      cases hinteger : integer? s.toList with
      | some n =>
          obtain ⟨negative, n, numeral, fits, rfl⟩ := integer?_eq_some_iff.mp hinteger
          exact .int numeral fits
      | none =>
          have noInteger := integer?_eq_none_iff.mp hinteger
          cases hdouble : double? s.toList with
          | some d =>
              obtain ⟨negative, c, k, numeral, rounds, finite⟩ := double?_eq_some_iff.mp hdouble
              exact .float numeral (by rintro rfl; exact noInteger _ _ numeral) rounds finite
          | none => exact .str hword noInteger (double?_eq_none_iff.mp hdouble)
  · intro h
    cases h with
    | bool word => exact ofText_of_word word
    | int numeral fits =>
        rw [ofText_of_noWord (map_lowerAscii_ne_of_numeral numeral),
          integer?_eq_some_iff.mpr ⟨_, _, numeral, fits, rfl⟩]
        rfl
    | float numeral noInteger rounds finite =>
        have hinteger : integer? s.toList = none := by
          refine integer?_eq_none_iff.mpr fun negative n numeral' => ?_
          obtain ⟨rfl, rfl, rfl⟩ := numeral_unique numeral numeral'
          exact noInteger rfl
        rw [ofText_of_noWord (map_lowerAscii_ne_of_numeral numeral), hinteger,
          double?_eq_some_iff.mpr ⟨_, _, _, numeral, rounds, finite⟩]
        rfl
    | str noWord noInteger noDouble =>
        rw [ofText_of_noWord noWord, integer?_eq_none_iff.mpr noInteger,
          double?_eq_none_iff.mpr noDouble]
        rfl

/-! ### Characters -/

theorem ascii_of_unsigned (h : Numeral.Unsigned ds c k) : Text.Ascii ds := by
  cases h with
  | whole digits => exact Text.ascii_of_all_isDigit digits.2
  | decimals digits decimals =>
      exact (Text.ascii_of_all_isDigit digits.2).append
        (.cons (by decide) (Text.ascii_of_all_isDigit decimals.2))

theorem ascii_of_numeral (h : Numeral cs negative c k) : Text.Ascii cs := by
  cases h with
  | plain h => exact ascii_of_unsigned h
  | minus h => exact .cons (by decide) (ascii_of_unsigned h)

/-- What is an ASCII character when its capital is made small is one before. -/
theorem toNat_lt_of_lowerAscii {ch : Char} (h : (Text.lowerAscii ch).toNat < 128) :
    ch.toNat < 128 := by
  rw [Text.lowerAscii] at h
  split at h
  · rename_i hcapital
    rw [Bool.and_eq_true, decide_eq_true_eq, decide_eq_true_eq] at hcapital
    exact Nat.lt_of_le_of_lt (UInt32.le_iff_toNat_le.mp hcapital.2) (by decide)
  · exact h

/-- Only ASCII is read as anything but itself. -/
theorem ReadAs.ascii {x : Scalar} (h : ReadAs s x) (hx : x ≠ .str s) : Text.Ascii s.toList := by
  cases h with
  | bool word =>
      rename_i b
      have hword : (toString b).toList.all (fun ch => decide (ch.toNat < 128)) = true := by
        cases b <;> decide
      intro ch hch
      have hlower := List.all_eq_true.mp hword (Text.lowerAscii ch)
        (word ▸ List.mem_map_of_mem hch)
      exact toNat_lt_of_lowerAscii (of_decide_eq_true hlower)
  | int numeral | float numeral => exact ascii_of_numeral numeral
  | str => exact absurd rfl hx

end

/-- **A text is read by its grammar, and nothing of it is lost.**  The words for the booleans are
known in any case of their letters; a decimal numeral is an integer if 64 bits hold it, and else the
double it rounds to, if that is finite; any other text stays what it is, and so does every text with
a character beyond ASCII, be it a digit.  Whatever a text is read as, the text itself is kept. -/
theorem ofText_classified (s : String) :
    (∀ x, ofText s = x ↔ ReadAs s x) ∧ (ofText s).text? = some s ∧
      ((∃ ch ∈ s.toList, 128 ≤ ch.toNat) → ofText s = .str s) := by
  refine ⟨fun x => ofText_eq_iff, text?_ofText s, ?_⟩
  rintro ⟨ch, hch, hhigh⟩
  by_contra hne
  have hlow : ch.toNat < 128 := (ofText_eq_iff.mp rfl).ascii hne ch hch
  exact absurd hhigh (Nat.not_le.mpr hlow)

/-- The digits of another script are no number, and the least integer of 64 bits is one. -/
theorem ofText_classified_leastInteger :
    (∃ ch ∈ "-٤٢".toList, 128 ≤ ch.toNat) ∧ ofText "-٤٢" = .str "-٤٢" ∧
      ofText "-9223372036854775808" = .int (-9223372036854775808) "-9223372036854775808" := by
  have hdigit : ∃ ch ∈ "-٤٢".toList, 128 ≤ ch.toNat := ⟨'٤', by decide, by decide⟩
  have hdigits : Text.Digits "9223372036854775808".toList := ⟨by decide, by decide⟩
  have hnumeral : Numeral "-9223372036854775808".toList true 9223372036854775808 0 :=
    .minus (.whole hdigits)
  exact ⟨hdigit, (ofText_classified "-٤٢").2.2 hdigit,
    ((ofText_classified "-9223372036854775808").1 _).mpr (.int hnumeral (by decide))⟩

end Scalar
end ResourceQuery
