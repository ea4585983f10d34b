import ResourceQuery.Text.Fold
import ResourceQuery.Text.Substring

/-!
# Text — what a pattern matches

Patterns of `LIKE` with the backslash as escape character: `%` takes any characters, `_` takes one,
and a backslash makes the next character literal.  Other characters take themselves up to a folding.

* `escapeChars_eq_replaced`: a needle is escaped by three replacements, of which that of the
  backslash comes first.
* `Pattern.items?_containsPattern`: the pattern of a needle is the needle's characters between two
  runs, and does not end inside an escape.
* `containsPattern_matches`: so it matches the texts that contain the needle, up to the folding.
-/

namespace ResourceQuery.Text

/-! ### Escaping -/

theorem isWild_iff {c : Char} : isWild c = true ↔ c ∈ ['%', '_', '\\'] := by
  simp [isWild, or_assoc]

/-- Every `c` with a backslash in front of it. -/
def replaced (c : Char) (cs : List Char) : List Char :=
  cs.flatMap fun d => if d = c then ['\\', d] else [d]

/-- **A text is escaped by three replacements.**  That of the backslash comes first, so that no
backslash which another one puts in is escaped again. -/
theorem escapeChars_eq_replaced (cs : List Char) :
    escapeChars cs = replaced '_' (replaced '%' (replaced '\\' cs)) := by
  induction cs with
  | nil => rfl
  | cons c cs ih =>
      by_cases hwild : isWild c = true
      · have hc := isWild_iff.mp hwild
        simp only [List.mem_cons, List.not_mem_nil, or_false] at hc
        rw [escapeChars, if_pos hwild, ih]
        rcases hc with rfl | rfl | rfl <;> rfl
      · have hc := mt isWild_iff.mpr hwild
        simp only [List.mem_cons, List.not_mem_nil, or_false, not_or] at hc
        rw [escapeChars, if_neg hwild, ih]
        simp [replaced, hc]

/-! ### Patterns -/

namespace Pattern

/-- An item of a pattern. -/
inductive Item where
  /-- Any characters, or none. -/
  | run
  /-- Any one character. -/
  | one
  /-- This character and no other. -/
  | exactly (c : Char)
  /-- A character that folds as this one does. -/
  | folded (c : Char)
  deriving DecidableEq, Repr

/-- The items of a pattern; a pattern that ends inside an escape has none. -/
def items? : List Char → Option (List Item)
  | [] => some []
  | ['\\'] => none
  | '\\' :: c :: cs => (items? cs).map (.exactly c :: ·)
  | '%' :: cs => (items? cs).map (.run :: ·)
  | '_' :: cs => (items? cs).map (.one :: ·)
  | c :: cs => (items? cs).map (.folded c :: ·)

/-- The items take up a text, one after the other and to its end. -/
def Takes (fold : Char → Char) : List Item → List Char → Prop
  | [], cs => cs = []
  | .run :: is, cs => ∃ front back, cs = front ++ back ∧ Takes fold is back
  | .one :: is, cs => ∃ d back, cs = d :: back ∧ Takes fold is back
  | .exactly c :: is, cs => ∃ back, cs = c :: back ∧ Takes fold is back
  | .folded c :: is, cs => ∃ d back, cs = d :: back ∧ fold d = fold c ∧ Takes fold is back

/-- The text matches the pattern, up to a folding. -/
def Matches (fold : Char → Char) (pattern text : String) : Prop :=
  ∃ is, items? pattern.toList = some is ∧ Takes fold is text.toList

/-- The folding leaves the characters that mean something in a pattern apart from all others. -/
def Apart (fold : Char → Char) : Prop :=
  ∀ c ∈ ['%', '_', '\\'], ∀ d, fold d = fold c → d = c

/-- What a character of a needle is in its pattern. -/
def literal (c : Char) : Item :=
  if isWild c then .exactly c else .folded c

theorem items?_escapeChars (cs ds : List Char) :
    items? (escapeChars cs ++ ds) = (items? ds).map (cs.map literal ++ ·) := by
  induction cs with
  | nil => simp [escapeChars]
  | cons c cs ih =>
      by_cases hwild : isWild c = true
      · rw [escapeChars, if_pos hwild]
        show (items? (escapeChars cs ++ ds)).map (.exactly c :: ·) = _
        rw [ih, Option.map_map, List.map_cons, literal, if_pos hwild]
        rfl
      · have hplain : items? (c :: (escapeChars cs ++ ds)) =
            (items? (escapeChars cs ++ ds)).map (.folded c :: ·) := by
          have hc := mt isWild_iff.mpr hwild
          simp only [List.mem_cons, List.not_mem_nil, or_false, not_or] at hc
          rw [items?.eq_def]
          split <;> simp_all
        rw [escapeChars, if_neg hwild, List.cons_append, hplain, ih, Option.map_map, List.map_cons,
          literal, if_neg hwild]
        rfl

/-- **The pattern of a needle is its characters between two runs.** -/
theorem items?_containsPattern (needle : String) :
    items? (containsPattern needle).toList =
      some (.run :: (needle.toList.map literal ++ [.run])) := by
  rw [containsPattern, String.toList_ofList]
  show (items? (escapeChars needle.toList ++ ['%'])).map (.run :: ·) = _
  rw [items?_escapeChars]
  rfl

variable {fold : Char → Char}

/-- A character of a needle takes itself, up to the folding. -/
theorem takes_literal_cons_iff (apart : Apart fold) {c : Char} {is : List Item} {cs : List Char} :
    Takes fold (literal c :: is) cs ↔
      ∃ d back, cs = d :: back ∧ fold d = fold c ∧ Takes fold is back := by
  by_cases hwild : isWild c = true
  · rw [literal, if_pos hwild, Takes]
    constructor
    · rintro ⟨back, rfl, h⟩
      exact ⟨c, back, rfl, rfl, h⟩
    · rintro ⟨d, back, rfl, hd, h⟩
      rw [apart c (isWild_iff.mp hwild) d hd]
      exact ⟨back, rfl, h⟩
  · rw [literal, if_neg hwild, Takes]

/-- The characters of a needle take as many as they are, each alike. -/
theorem takes_literals_append_iff (apart : Apart fold) {needle : List Char} {is : List Item}
    {cs : List Char} :
    Takes fold (needle.map literal ++ is) cs ↔
      ∃ part back, cs = part ++ back ∧ part.map fold = needle.map fold ∧ Takes fold is back := by
  induction needle generalizing cs with
  | nil =>
      rw [List.map_nil, List.nil_append]
      constructor
      · intro h
        exact ⟨[], cs, rfl, rfl, h⟩
      · rintro ⟨part, back, rfl, hpart, h⟩
        rw [List.map_eq_nil_iff.mp hpart]
        exact h
  | cons c needle ih =>
      rw [List.map_cons, List.cons_append, takes_literal_cons_iff apart]
      constructor
      · rintro ⟨d, rest, rfl, hd, h⟩
        obtain ⟨part, back, rfl, hpart, h⟩ := ih.mp h
        exact ⟨d :: part, back, rfl, by rw [List.map_cons, List.map_cons, hd, hpart], h⟩
      · rintro ⟨part, back, rfl, hpart, h⟩
        rw [List.map_cons] at hpart
        obtain ⟨d, part, rfl, hd, hpart⟩ := List.map_eq_cons_iff.mp hpart
        exact ⟨d, part ++ back, rfl, hd, ih.mpr ⟨part, back, rfl, hpart, h⟩⟩

end Pattern

open Pattern (Apart Matches Takes items?)

/-- **The pattern of a needle matches the texts that contain it.**  The needle is escaped, its
backslashes first, and set between two runs; the pattern does not end inside an escape; and it
matches a text exactly if a part of the text is the needle, character by character and up to the
folding. -/
theorem containsPattern_matches {fold : Char → Char} (apart : Apart fold) (needle text : String) :
    (containsPattern needle).toList =
        '%' :: replaced '_' (replaced '%' (replaced '\\' needle.toList)) ++ ['%'] ∧
      (items? (containsPattern needle).toList).isSome = true ∧
      (Matches fold (containsPattern needle) text ↔
        ∃ part, part <:+: text.toList ∧ part.map fold = needle.toList.map fold) := by
  refine ⟨?_, by rw [Pattern.items?_containsPattern]; rfl, ?_⟩
  · rw [containsPattern, String.toList_ofList, escapeChars_eq_replaced]
  · rw [Matches, Pattern.items?_containsPattern]
    constructor
    · rintro ⟨_, ⟨⟩, front, rest, htext, h⟩
      obtain ⟨part, back, rfl, hpart, -⟩ := (Pattern.takes_literals_append_iff apart).mp h
      exact ⟨part, ⟨front, back, by rw [htext, List.append_assoc]⟩, hpart⟩
    · rintro ⟨part, ⟨front, back, htext⟩, hpart⟩
      have hend : Takes fold [.run] back := ⟨back, [], (List.append_nil _).symm, rfl⟩
      refine ⟨_, rfl, front, part ++ back, by rw [← htext, List.append_assoc], ?_⟩
      exact (Pattern.takes_literals_append_iff apart).mpr ⟨part, back, rfl, hpart, hend⟩

/-- A capital is folded to a small letter, which means nothing in a pattern. -/
theorem apart_lowerAscii : Apart lowerAscii := by
  intro c hc d hd
  simp only [List.mem_cons, List.not_mem_nil, or_false] at hc
  have hmark : c.toNat < 96 ∧ lowerAscii c = c := by
    rcases hc with rfl | rfl | rfl <;> decide
  rw [hmark.2, lowerAscii] at hd
  split at hd
  · rename_i hcapital
    rw [Bool.and_eq_true, decide_eq_true_eq, decide_eq_true_eq] at hcapital
    have hlow : 65 ≤ d.toNat := hcapital.1
    have hhigh : d.toNat ≤ 90 := hcapital.2
    have hvalid : (d.toNat + 32).isValidChar := .inl (by omega)
    have hsmall : (Char.ofNat (d.toNat + 32)).toNat = d.toNat + 32 := by
      rw [Char.ofNat, dif_pos hvalid]
      rfl
    rw [hd] at hsmall
    omega
  · exact hd

/-- A needle made of marks and a letter is found in any case, and its marks stand for
themselves. -/
theorem containsPattern_matches_marks :
    Apart lowerAscii ∧ Matches lowerAscii (containsPattern "5%_\\O") "now 5%_\\off" ∧
      ¬ Matches lowerAscii (containsPattern "5%o") "5 or 50 off" := by
  obtain ⟨-, -, hfound⟩ := containsPattern_matches apart_lowerAscii "5%_\\O" "now 5%_\\off"
  obtain ⟨-, -, hmissed⟩ := containsPattern_matches apart_lowerAscii "5%o" "5 or 50 off"
  have hpart : "5%_\\o".toList <:+: "now 5%_\\off".toList := ⟨"now ".toList, "ff".toList, rfl⟩
  refine ⟨apart_lowerAscii, hfound.mpr ⟨_, hpart, by decide +kernel⟩, fun h => ?_⟩
  obtain ⟨part, hpart, hfold⟩ := hmissed.mp h
  have hinfix := hpart.map lowerAscii
  rw [hfold] at hinfix
  exact absurd hinfix (by decide +kernel)

end ResourceQuery.Text
