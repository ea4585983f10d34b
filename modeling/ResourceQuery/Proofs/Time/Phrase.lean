import ResourceQuery.Proofs.Filter.Numeral
import ResourceQuery.Proofs.Text.Item
import ResourceQuery.Time.Span

/-!
# Time — phrases for relative dates

* `Phrase`: a direction, a number and a period, with the words these are written in.  Up to simple
  case folding the words are `last` or `next`, and `day`, `week` or `month`.
* `Phrase.Writes`: the texts of a phrase, with white space between its words and around it, and an
  `s` after the last of them or none.
* `words?_eq_some_iff`: the texts of phrases are taken apart into their words, and no others.
* `phrases_parsed`: words in ASCII are taken for what they say.  Of the others, all of which say
  `last` or `week`, the direction is taken for `next` and the period for a month.
-/

namespace ResourceQuery

/-! ### Letters up to case -/

namespace Text

variable {c : Char} {w v : List Char}

theorem lowerAscii_of_not_capital (h : c.toNat < 65 ∨ 90 < c.toNat) : lowerAscii c = c := by
  refine if_neg fun hcapital => ?_
  rw [Bool.and_eq_true, decide_eq_true_eq, decide_eq_true_eq] at hcapital
  have hlow : 65 ≤ c.toNat := UInt32.le_iff_toNat_le.mp hcapital.1
  have hhigh : c.toNat ≤ 90 := UInt32.le_iff_toNat_le.mp hcapital.2
  omega

/-- White space has no case. -/
theorem foldChar_of_isBlank (h : isBlank c = true) : foldChar c = c := by
  simp only [isBlank, Bool.or_eq_true, Bool.and_eq_true, decide_eq_true_eq, beq_iff_eq] at h
  rw [foldChar, if_neg (by omega), if_neg (by omega)]
  exact lowerAscii_of_not_capital (by omega)

theorem not_isBlank_of_foldChar (h : isBlank (foldChar c) = false) : isBlank c = false := by
  by_contra hblank
  rw [Bool.not_eq_false] at hblank
  rw [foldChar_of_isBlank hblank, hblank] at h
  cases h

theorem not_isBlank_of_isDigit (h : c.isDigit = true) : isBlank c = false := by
  have hbounds := le_toNat_of_isDigit h
  rw [show '0'.toNat = 48 from rfl, show '9'.toNat = 57 from rfl] at hbounds
  simp only [isBlank, Bool.or_eq_false_iff, Bool.and_eq_false_iff, decide_eq_false_iff_not,
    beq_eq_false_iff_ne]
  omega

/-- In ASCII the two notions of case are one. -/
theorem foldChar_of_ascii (h : c.toNat < 128) : foldChar c = lowerAscii c := by
  rw [foldChar, if_neg (by omega), if_neg (by omega)]

theorem map_foldChar_of_ascii (h : Ascii w) : w.map foldChar = w.map lowerAscii :=
  List.map_congr_left fun c hc => foldChar_of_ascii (h c hc)

/-- All letters are small ones of ASCII. -/
def isSmall (v : List Char) : Bool :=
  v.all fun c => decide (c.toNat < 128) && lowerAscii c == c

theorem ascii_of_isSmall (h : isSmall v = true) : Ascii v := by
  simp only [isSmall, List.all_eq_true, Bool.and_eq_true, decide_eq_true_eq] at h
  exact fun c hc => (h c hc).1

theorem map_lowerAscii_of_isSmall (h : isSmall v = true) : v.map lowerAscii = v := by
  simp only [isSmall, List.all_eq_true, Bool.and_eq_true, beq_iff_eq] at h
  exact (List.map_congr_left fun c hc => (h c hc).2).trans v.map_id

/-- A small word is known up to the case of ASCII letters exactly if what is written is in ASCII and
that word up to simple case folding. -/
theorem sameAscii_iff (small : isSmall v = true) :
    sameAscii w v = true ↔ Ascii w ∧ w.map foldChar = v := by
  rw [sameAscii, beq_iff_eq, map_lowerAscii_of_isSmall small]
  constructor
  · intro h
    have hw : Ascii w := by
      intro c hc
      refine Scalar.toNat_lt_of_lowerAscii (ascii_of_isSmall small _ ?_)
      rw [← h]
      exact List.mem_map_of_mem hc
    exact ⟨hw, (map_foldChar_of_ascii hw).trans h⟩
  · rintro ⟨hw, h⟩
    rw [← map_foldChar_of_ascii hw, h]

/-- Beyond ASCII there are an `s` and a `k`, and no other letters. -/
theorem ascii_of_folded (h : w.map foldChar = v) (small : isSmall v = true) (hs : 's' ∉ v)
    (hk : 'k' ∉ v) : Ascii w := by
  intro c hc
  have hmem : foldChar c ∈ v := h ▸ List.mem_map_of_mem hc
  have hlow := ascii_of_isSmall small _ hmem
  rw [foldChar] at hlow hmem
  split at hmem
  · exact absurd hmem hs
  · split at hmem
    · exact absurd hmem hk
    · rename_i hlong hkelvin
      rw [if_neg hlong, if_neg hkelvin] at hlow
      exact Scalar.toNat_lt_of_lowerAscii hlow

end Text

/-! ### Phrases -/

/-- A period that is counted in. -/
inductive Period where
  | day
  | week
  | month
  deriving DecidableEq, Repr

/-- The word for a period. -/
def Period.word : Period → List Char
  | day => ['d', 'a', 'y']
  | week => ['w', 'e', 'e', 'k']
  | month => ['m', 'o', 'n', 't', 'h']

/-- The days of a period. -/
def Period.days : Period → Nat
  | day => 1
  | week => 7
  | month => 30

/-- The word for a direction. -/
def Direction.word : Direction → List Char
  | last => ['l', 'a', 's', 't']
  | next => ['n', 'e', 'x', 't']

/-- A direction, a number and a period, with the words and digits they are written in. -/
structure Phrase where
  direction : Direction
  directionWord : List Char
  digits : List Char
  period : Period
  periodWord : List Char

namespace Phrase

open Text (Blanks Digits Ascii isBlank foldChar)

/-- The number of a phrase. -/
def number (p : Phrase) : Nat :=
  Text.natOfDigits p.digits

/-- White space, at least one character of it. -/
structure Gap (cs : List Char) : Prop where
  nonempty : cs ≠ []
  blanks : Blanks cs

/-- An `s` of any kind, or nothing. -/
inductive Plural : List Char → Prop where
  | absent : Plural []
  | present {c : Char} (h : foldChar c = 's') : Plural [c]

/-- The texts of a phrase. -/
inductive Writes (p : Phrase) : List Char → Prop where
  | intro {before gap gap' plural after : List Char} (blankBefore : Blanks before)
      (direction : p.directionWord.map foldChar = p.direction.word) (between : Gap gap)
      (digits : Digits p.digits) (between' : Gap gap')
      (period : p.periodWord.map foldChar = p.period.word) (ending : Plural plural)
      (blankAfter : Blanks after) :
      Writes p (before ++ (p.directionWord ++ (gap ++ (p.digits ++ (gap' ++ (p.periodWord ++
        (plural ++ after)))))))

variable {p : Phrase} {cs : List Char}

theorem Writes.digits (h : p.Writes cs) : Digits p.digits := by
  cases h
  assumption

theorem Writes.direction (h : p.Writes cs) : p.directionWord.map foldChar = p.direction.word := by
  cases h
  assumption

theorem Writes.period (h : p.Writes cs) : p.periodWord.map foldChar = p.period.word := by
  cases h
  assumption

end Phrase

/-! ### Taking a text apart -/

namespace Span

open Text (Blanks Digits Ascii isBlank foldChar dropBlanks)
open Phrase (Gap Plural Writes)

variable {cs rest w : List Char} {words : List (List Char)}

theorem gap?_eq_some_iff :
    gap? cs = some rest ↔
      ∃ gap, Gap gap ∧ cs = gap ++ rest ∧ ∀ c ∈ rest.head?, isBlank c = false := by
  constructor
  · intro h
    cases cs with
    | nil => cases h
    | cons c cs =>
        rw [gap?, Option.ite_none_right_eq_some] at h
        obtain ⟨hblank, h⟩ := h
        obtain rfl := Option.some.inj h
        obtain ⟨before, blankBefore, hcs, hhead⟩ := Text.exists_blanks_append cs
        refine ⟨c :: before, ⟨List.cons_ne_nil c before, ?_⟩, congrArg (c :: ·) hcs, hhead⟩
        exact List.forall_mem_cons.mpr ⟨hblank, blankBefore⟩
  · rintro ⟨gap, between, rfl, hhead⟩
    obtain ⟨c, gap, rfl⟩ := List.exists_cons_of_ne_nil between.nonempty
    obtain ⟨hblank, blanks⟩ := List.forall_mem_cons.mp between.blanks
    rw [List.cons_append, gap?, if_pos hblank, Text.dropBlanks_blanks_append blanks,
      Text.dropBlanks_of_head hhead]

/-- Of words that start with different letters, the one that is written is found. -/
theorem word?_of_folded (nonempty : [] ∉ words) (apart : (words.map List.head?).Nodup)
    (h : w.map foldChar ∈ words) : word? words (w ++ rest) = some (w, rest) := by
  induction words with
  | nil => cases h
  | cons v words ih =>
      rw [List.mem_cons, not_or] at nonempty
      rw [List.map_cons, List.nodup_cons] at apart
      have hw : w ≠ [] := by
        rintro rfl
        rcases List.mem_cons.mp h with h | h
        · exact nonempty.1 h
        · exact nonempty.2 h
      obtain ⟨c, w, rfl⟩ := List.exists_cons_of_ne_nil hw
      obtain ⟨d, v, rfl⟩ := List.exists_cons_of_ne_nil (Ne.symm nonempty.1)
      rw [word?, List.findSome?_cons]
      by_cases hsame : (c :: w).map foldChar = d :: v
      · have hlength : (d :: v).length = (c :: w).length := by
          rw [← hsame, List.length_map]
        rw [hlength, List.take_left, List.drop_left, Text.sameFolded, hsame, beq_self_eq_true]
        rfl
      · have hmem := (List.mem_cons.mp h).resolve_left hsame
        -- the first letters differ, whatever follows them
        have hother : Text.sameFolded ((c :: w ++ rest).take (d :: v).length) (d :: v) = false := by
          refine beq_eq_false_iff_ne.mpr fun heq => apart.1 ?_
          rw [List.cons_append, List.length_cons, List.take_succ_cons, List.map_cons] at heq
          have hhead := List.mem_map_of_mem (f := List.head?) hmem
          rwa [List.map_cons, List.head?_cons, (List.cons.inj heq).1] at hhead
        rw [hother]
        exact ih nonempty.2 apart.2 hmem

theorem word?_eq_some_iff (nonempty : [] ∉ words) (apart : (words.map List.head?).Nodup) :
    word? words cs = some (w, rest) ↔ w.map foldChar ∈ words ∧ cs = w ++ rest := by
  constructor
  · intro h
    obtain ⟨v, hv, h⟩ := List.exists_of_findSome?_eq_some h
    obtain ⟨hsame, h⟩ := Option.ite_none_right_eq_some.mp h
    cases h
    rw [Text.sameFolded, beq_iff_eq] at hsame
    rw [hsame]
    exact ⟨hv, (List.take_append_drop v.length cs).symm⟩
  · rintro ⟨hw, rfl⟩
    exact word?_of_folded nonempty apart hw

theorem dropPlural_blanks_iff :
    (dropBlanks (dropPlural cs)).isEmpty = true ↔
      ∃ plural after, cs = plural ++ after ∧ Plural plural ∧ Blanks after := by
  rw [List.isEmpty_iff, Text.dropBlanks_eq_nil_iff]
  constructor
  · intro h
    cases cs with
    | nil => exact ⟨[], [], rfl, .absent, h⟩
    | cons c cs =>
        rw [dropPlural] at h
        split at h
        · rename_i hs
          exact ⟨[c], cs, rfl, .present hs, h⟩
        · exact ⟨[], c :: cs, rfl, .absent, h⟩
  · rintro ⟨plural, after, rfl, ending, blankAfter⟩
    cases ending with
    | present hs =>
        rw [List.singleton_append, dropPlural, if_pos hs]
        exact blankAfter
    | absent =>
        rw [List.nil_append]
        cases after with
        | nil => exact blankAfter
        | cons c after =>
            have hblank := blankAfter c List.mem_cons_self
            have hs : foldChar c ≠ 's' := by
              intro hs
              rw [Text.foldChar_of_isBlank hblank] at hs
              rw [hs] at hblank
              cases hblank
            rw [dropPlural, if_neg hs]
            exact blankAfter

/-- What is written for a word does not start with white space, nor is it empty. -/
theorem not_isBlank_of_folded {v : List Char} (h : w.map foldChar = v)
    (hv : ∃ d ds, v = d :: ds ∧ isBlank d = false) :
    ∀ c ∈ (w ++ rest).head?, isBlank c = false := by
  obtain ⟨d, ds, rfl, hd⟩ := hv
  obtain ⟨c, w, rfl, hc, -⟩ := List.map_eq_cons_iff.mp h
  rintro c' hc'
  obtain rfl := Option.some.inj hc'
  exact Text.not_isBlank_of_foldChar (hc ▸ hd)

theorem direction_word_head (d : Direction) :
    ∃ c cs, d.word = c :: cs ∧ isBlank c = false := by
  cases d with
  | last | next => exact ⟨_, _, rfl, rfl⟩

theorem period_word_head (p : Period) : ∃ c cs, p.word = c :: cs ∧ isBlank c = false := by
  cases p with
  | day | week | month => exact ⟨_, _, rfl, rfl⟩

theorem direction?_eq_some_iff :
    word? ["last".toList, "next".toList] cs = some (w, rest) ↔
      ∃ d : Direction, w.map foldChar = d.word ∧ cs = w ++ rest := by
  rw [word?_eq_some_iff (by decide) (by decide), List.mem_cons, List.mem_singleton]
  constructor
  · rintro ⟨hw | hw, hcs⟩
    · exact ⟨.last, hw, hcs⟩
    · exact ⟨.next, hw, hcs⟩
  · rintro ⟨d, hw, hcs⟩
    cases d with
    | last => exact ⟨.inl hw, hcs⟩
    | next => exact ⟨.inr hw, hcs⟩

theorem period?_eq_some_iff :
    word? ["day".toList, "week".toList, "month".toList] cs = some (w, rest) ↔
      ∃ p : Period, w.map foldChar = p.word ∧ cs = w ++ rest := by
  rw [word?_eq_some_iff (by decide) (by decide), List.mem_cons, List.mem_cons, List.mem_singleton]
  constructor
  · rintro ⟨hw | hw | hw, hcs⟩
    · exact ⟨.day, hw, hcs⟩
    · exact ⟨.week, hw, hcs⟩
    · exact ⟨.month, hw, hcs⟩
  · rintro ⟨p, hw, hcs⟩
    cases p with
    | day => exact ⟨.inl hw, hcs⟩
    | week => exact ⟨.inr (.inl hw), hcs⟩
    | month => exact ⟨.inr (.inr hw), hcs⟩

theorem takeWhile_isDigit_gap {gap : List Char} (between : Gap gap) (rest : List Char) :
    (gap ++ rest).takeWhile Char.isDigit = [] := by
  obtain ⟨c, gap, rfl⟩ := List.exists_cons_of_ne_nil between.nonempty
  have hblank := between.blanks c List.mem_cons_self
  refine List.takeWhile_cons_of_neg fun hdigit => ?_
  rw [Text.not_isBlank_of_isDigit hdigit] at hblank
  cases hblank

/-- **The texts that are taken apart into words are those of phrases.** -/
theorem words?_eq_some_iff {parts : List Char × List Char × List Char} :
    words? cs = some parts ↔
      ∃ p : Phrase, p.Writes cs ∧ parts = (p.directionWord, p.digits, p.periodWord) := by
  simp only [words?, Option.bind_eq_bind, Option.bind_eq_some_iff, Prod.exists,
    direction?_eq_some_iff, period?_eq_some_iff, gap?_eq_some_iff, Option.ite_none_right_eq_some,
    dropPlural_blanks_iff, Option.some.injEq]
  constructor
  · rintro ⟨w, r₁, ⟨d, hd, hstart⟩, r₂, ⟨gap, between, rfl, hnumber⟩, r₃,
      ⟨gap', between', hrest, -⟩, u, r₄, ⟨period, hperiod, rfl⟩, ⟨plural, after, rfl, ending,
        blankAfter⟩, rfl⟩
    obtain ⟨before, blankBefore, hcs, -⟩ := Text.exists_blanks_append cs
    have hjoin : r₂.takeWhile Char.isDigit ++ r₂.dropWhile Char.isDigit = r₂ :=
      List.takeWhile_append_dropWhile
    have hdigits : Digits (r₂.takeWhile Char.isDigit) := by
      refine ⟨fun hnone => ?_, List.all_takeWhile⟩
      -- without digits, the second gap would stand where the first one ended
      rw [hnone, List.nil_append, hrest] at hjoin
      obtain ⟨c, gap', rfl⟩ := List.exists_cons_of_ne_nil between'.nonempty
      have hblank := between'.blanks c List.mem_cons_self
      rw [hnumber c (by rw [← hjoin]; rfl)] at hblank
      cases hblank
    have writes := Writes.intro (p := ⟨d, w, r₂.takeWhile Char.isDigit, period, u⟩)
      blankBefore hd between hdigits between' hperiod ending blankAfter
    rw [← hrest, hjoin, ← hstart, ← hcs] at writes
    exact ⟨_, writes, rfl⟩
  · rintro ⟨p, writes, rfl⟩
    obtain ⟨blankBefore, hd, between, hdigits, between', hperiod, ending, blankAfter⟩ := writes
    rename_i before gap gap' plural after
    obtain ⟨htake, hdrop⟩ := Scalar.span_digits _ hdigits.2 (takeWhile_isDigit_gap between' _)
    have hdigit : ∀ c ∈ (p.digits ++ (gap' ++ (p.periodWord ++ (plural ++ after)))).head?,
        isBlank c = false := by
      obtain ⟨c, ds, hds⟩ := List.exists_cons_of_ne_nil hdigits.1
      rw [hds]
      rintro c' hc'
      obtain rfl := Option.some.inj hc'
      exact Text.not_isBlank_of_isDigit (List.all_eq_true.mp (hds ▸ hdigits.2) c List.mem_cons_self)
    refine ⟨p.directionWord, _, ⟨p.direction, hd, ?_⟩, _, ⟨gap, between, rfl, hdigit⟩, _,
      ⟨gap', between', hdrop, not_isBlank_of_folded hperiod (period_word_head p.period)⟩,
      p.periodWord, _, ⟨p.period, hperiod, rfl⟩, ⟨plural, after, rfl, ending, blankAfter⟩, ?_⟩
    · rw [Text.dropBlanks_blanks_append blankBefore]
      exact Text.dropBlanks_of_head (not_isBlank_of_folded hd (direction_word_head p.direction))
    · rw [htake]

/-! ### What phrases are taken for -/

variable {p : Phrase} {expr : String}

/-- The direction that a word is taken for. -/
def takenDirection (w : List Char) : Direction :=
  if Text.sameAscii w "last".toList then .last else .next

/-- **A direction in ASCII is taken for what it says**, and any other one for `next`. -/
theorem takenDirection_of_writes (writes : p.Writes cs) :
    (Ascii p.directionWord → takenDirection p.directionWord = p.direction) ∧
    (¬ Ascii p.directionWord → p.direction = .last ∧ takenDirection p.directionWord = .next) := by
  have hword := writes.direction
  have hlast := Text.sameAscii_iff (w := p.directionWord) (v := "last".toList) (by decide)
  cases hd : p.direction with
  | last =>
      rw [hd] at hword
      exact ⟨fun h => if_pos (hlast.mpr ⟨h, hword⟩),
        fun h => ⟨rfl, if_neg fun hsame => h (hlast.mp hsame).1⟩⟩
  | next =>
      rw [hd] at hword
      have hascii := Text.ascii_of_folded hword (by decide) (by decide) (by decide)
      have hother : ¬ Text.sameAscii p.directionWord "last".toList = true := by
        rw [hlast, hword]
        exact fun h => absurd h.2 (by decide)
      exact ⟨fun _ => if_neg hother, fun h => absurd hascii h⟩

/-- **A period in ASCII is taken for what it says**, and any other one for a month. -/
theorem unitDays_of_writes (writes : p.Writes cs) :
    (Ascii p.periodWord → unitDays p.periodWord = p.period.days) ∧
    (¬ Ascii p.periodWord → p.period = .week ∧ unitDays p.periodWord = 30) := by
  have hword := writes.period
  have hday := Text.sameAscii_iff (w := p.periodWord) (v := "day".toList) (by decide)
  have hweek := Text.sameAscii_iff (w := p.periodWord) (v := "week".toList) (by decide)
  rw [hword] at hday hweek
  cases hp : p.period with
  | day =>
      rw [hp] at hword hday
      have hascii := Text.ascii_of_folded hword (by decide) (by decide) (by decide)
      exact ⟨fun h => if_pos (hday.mpr ⟨h, rfl⟩), fun h => absurd hascii h⟩
  | week =>
      rw [hp] at hday hweek
      have hday' : ¬ Text.sameAscii p.periodWord "day".toList = true :=
        fun h => absurd (hday.mp h).2 (by decide)
      refine ⟨fun h => ?_, fun h => ⟨rfl, ?_⟩⟩
      · rw [unitDays, if_neg hday', if_pos (hweek.mpr ⟨h, rfl⟩)]
        rfl
      · rw [unitDays, if_neg hday', if_neg fun hsame => h (hweek.mp hsame).1]
  | month =>
      rw [hp] at hword hday hweek
      have hascii := Text.ascii_of_folded hword (by decide) (by decide) (by decide)
      refine ⟨fun _ => ?_, fun h => absurd hascii h⟩
      rw [unitDays, if_neg fun h => absurd (hday.mp h).2 (by decide),
        if_neg fun h => absurd (hweek.mp h).2 (by decide)]
      rfl

theorem parse?_of_writes (writes : p.Writes expr.toList) :
    parse? expr =
      if longCount ≤ p.number ∨ longCount ≤ p.number * unitDays p.periodWord then none
      else some ⟨takenDirection p.directionWord, p.number * unitDays p.periodWord⟩ := by
  have hwords := words?_eq_some_iff.mpr ⟨p, writes, rfl⟩
  have hnumber := Text.nat?_of_digits writes.digits.1 writes.digits.2
  rw [parse?, hwords]
  simp only [Option.bind_eq_bind, Option.bind_some, hnumber]
  rfl

theorem parse?_eq_none_iff (writes : p.Writes expr.toList) :
    parse? expr = none ↔
      longCount ≤ p.number ∨ longCount ≤ p.number * unitDays p.periodWord := by
  rw [parse?_of_writes writes]
  split
  · rename_i hlarge
    exact ⟨fun _ => hlarge, fun _ => rfl⟩
  · rename_i hfits
    exact ⟨fun h => absurd h (Option.some_ne_none _), fun h => absurd h hfits⟩

end Span

/-- **Relative dates mean what they say, if their words are in ASCII.**  What is parsed is a phrase.
Its direction and its days are those it says, save that a `last` with a long s is taken for `next`,
and a `week` with a Kelvin sign for a month; and a phrase is refused only if its number, or the
number of these days, takes more than 64 bits. -/
theorem phrases_parsed (expr : String) :
    (∀ span, Span.parse? expr = some span → ∃ p : Phrase, p.Writes expr.toList) ∧
    ∀ p : Phrase, p.Writes expr.toList →
      (∀ span, Span.parse? expr = some span →
        (Text.Ascii p.directionWord → span.direction = p.direction) ∧
        (¬ Text.Ascii p.directionWord → p.direction = .last ∧ span.direction = .next) ∧
        (Text.Ascii p.periodWord → span.days = p.number * p.period.days) ∧
        (¬ Text.Ascii p.periodWord → p.period = .week ∧ span.days = p.number * 30)) ∧
      (Text.Ascii p.periodWord →
        (Span.parse? expr = none ↔
          longCount ≤ p.number ∨ longCount ≤ p.number * p.period.days)) ∧
      (¬ Text.Ascii p.periodWord →
        (Span.parse? expr = none ↔ longCount ≤ p.number ∨ longCount ≤ p.number * 30)) := by
  refine ⟨fun span h => ?_, fun p writes => ⟨fun span h => ?_, fun hascii => ?_, fun hascii => ?_⟩⟩
  · obtain ⟨parts, hparts, -⟩ := Option.bind_eq_some_iff.mp h
    obtain ⟨p, writes, -⟩ := Span.words?_eq_some_iff.mp hparts
    exact ⟨p, writes⟩
  · obtain ⟨hdirection, hother⟩ := Span.takenDirection_of_writes writes
    obtain ⟨hdays, hmonth⟩ := Span.unitDays_of_writes writes
    rw [Span.parse?_of_writes writes] at h
    split at h
    · cases h
    · cases h
      refine ⟨hdirection, hother, fun hascii => ?_, fun hascii => ⟨(hmonth hascii).1, ?_⟩⟩
      · rw [hdays hascii]
      · rw [(hmonth hascii).2]
  · rw [Span.parse?_eq_none_iff writes, (Span.unitDays_of_writes writes).1 hascii]
  · rw [Span.parse?_eq_none_iff writes, ((Span.unitDays_of_writes writes).2 hascii).2]

/-- Seven weeks, in capitals and with a zero in front. -/
def sevenWeeks : Phrase :=
  ⟨.last, ['L', 'A', 'S', 'T'], ['0', '7'], .week, ['W', 'e', 'e', 'K']⟩

/-- The plural may be written with a long s. -/
theorem phrases_parsed_longPlural :
    sevenWeeks.Writes "\u3000LAST\t07 WeeKſ ".toList ∧
      Text.Ascii sevenWeeks.directionWord ∧ Text.Ascii sevenWeeks.periodWord ∧
      ∃ span, Span.parse? "\u3000LAST\t07 WeeKſ " = some span ∧
        span.direction = .last ∧ span.days = 49 := by
  have htext : "\u3000LAST\t07 WeeKſ ".toList = ['\u3000'] ++ (['L', 'A', 'S', 'T'] ++ (['\t'] ++
      (['0', '7'] ++ ([' '] ++ (['W', 'e', 'e', 'K'] ++ (['ſ'] ++ [' '])))))) := by decide
  have hblank : ∀ c, Text.isBlank c = true → Text.Blanks [c] :=
    fun c hc => List.forall_mem_singleton.mpr hc
  have writes : sevenWeeks.Writes "\u3000LAST\t07 WeeKſ ".toList := by
    rw [htext]
    exact .intro (hblank _ rfl) rfl ⟨by decide, hblank _ rfl⟩ ⟨by decide, rfl⟩
      ⟨by decide, hblank _ rfl⟩ rfl (.present rfl) (hblank _ rfl)
  have hdirection : Text.Ascii sevenWeeks.directionWord :=
    .cons (by decide) (.cons (by decide) (.cons (by decide) (.cons (by decide) nofun)))
  have hperiod : Text.Ascii sevenWeeks.periodWord :=
    .cons (by decide) (.cons (by decide) (.cons (by decide) (.cons (by decide) nofun)))
  have hparse : Span.parse? "\u3000LAST\t07 WeeKſ " = some ⟨.last, 49⟩ := by decide +kernel
  obtain ⟨h, -, h', -⟩ := ((phrases_parsed _).2 _ writes).1 _ hparse
  exact ⟨writes, hdirection, hperiod, _, hparse, h hdirection, h' hperiod⟩

/-- A word that is `last` up to simple case folding is taken for `next`, and one that is `week` for
a month. -/
theorem foldedWords_mistaken :
    (∃ p : Phrase, p.Writes "laſt 1 wee\u212a".toList ∧ p.direction = .last ∧ p.period = .week ∧
      p.number = 1) ∧
    Span.parse? "laſt 1 wee\u212a" = some ⟨.next, 30⟩ := by
  have htext : "laſt 1 wee\u212a".toList = [] ++ (['l', 'a', 'ſ', 't'] ++ ([' '] ++ (['1'] ++
      ([' '] ++ (['w', 'e', 'e', '\u212a'] ++ ([] ++ [])))))) := by decide
  have hblank : Text.Blanks [' '] := List.forall_mem_singleton.mpr rfl
  have writes : Phrase.Writes ⟨.last, ['l', 'a', 'ſ', 't'], ['1'], .week, ['w', 'e', 'e', '\u212a']⟩
      "laſt 1 wee\u212a".toList := by
    rw [htext]
    exact .intro nofun rfl ⟨by decide, hblank⟩ ⟨by decide, rfl⟩ ⟨by decide, hblank⟩ rfl .absent
      nofun
  exact ⟨⟨_, writes, rfl, rfl, rfl⟩, by decide +kernel⟩

end ResourceQuery
