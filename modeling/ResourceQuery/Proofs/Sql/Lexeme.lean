import ResourceQuery.Proofs.Sql.Token

/-!
# Sql — Lexeme

The lexemes of a text: letters and digits that touch make a word, and every other character outside
quotation marks is a sign of its own.

* `lexemes_append`: tokens may be cut anywhere but inside a word.
* `Piece.Spaced.lexemes_text`: where no word runs from a piece into the next (`Piece.Spaced`), the
  lexemes of the text are those of the pieces, one piece after the other.
* `Form.spaced_whereClause`: the text of a clause is such, and so its pieces are tidy.
-/

namespace ResourceQuery.Sql

/-- A lexeme of a statement. -/
inductive Lexeme where
  | word (s : String)
  | sign (c : Char)
  | name (ident : String)
  | literal (s : String)
  | unclosed (s : String)
  deriving DecidableEq, Repr

/-- The character is part of a word. -/
def isWordChar (c : Char) : Bool :=
  c.isAlphanum || c == '_'

/-- A character in front of some lexemes: part of the word they start with, if there is one. -/
def Lexeme.consMark (c : Char) (ls : List Lexeme) : List Lexeme :=
  if isWordChar c then
    match ls with
    | .word s :: ls => .word (String.ofList (c :: s.toList)) :: ls
    | ls => .word (String.ofList [c]) :: ls
  else .sign c :: ls

/-- The lexemes of some tokens. -/
def lexemes : List Token → List Lexeme
  | [] => []
  | .mark c :: ts => Lexeme.consMark c (lexemes ts)
  | .name ident :: ts => .name ident :: lexemes ts
  | .literal s :: ts => .literal s :: lexemes ts
  | .unclosed s :: ts => .unclosed s :: lexemes ts

/-- The token is a character of a word. -/
def Token.inWord : Token → Bool
  | mark c => isWordChar c
  | name _ | literal _ | unclosed _ => false

/-- The tokens start inside a word. -/
def startsInWord (ts : List Token) : Bool :=
  ts.head?.any Token.inWord

/-- The tokens end inside a word. -/
def endsInWord (ts : List Token) : Bool :=
  ts.getLast?.any Token.inWord

theorem lexemes_ne_nil {t : Token} {ts : List Token} : lexemes (t :: ts) ≠ [] := by
  cases t with
  | mark c =>
      rw [lexemes]
      unfold Lexeme.consMark
      split
      · split <;> exact List.cons_ne_nil _ _
      · exact List.cons_ne_nil _ _
  | name _ | literal _ | unclosed _ => exact List.cons_ne_nil _ _

/-- No word is joined by a character that stands before lexemes which start with none. -/
theorem lexemes_mark_cons {c : Char} {ts : List Token}
    (h : isWordChar c = false ∨ startsInWord ts = false) :
    lexemes (.mark c :: ts) = lexemes [.mark c] ++ lexemes ts := by
  rw [lexemes, lexemes]
  unfold Lexeme.consMark
  split
  · rename_i hc
    cases ts with
    | nil => rfl
    | cons t ts =>
        have ht : t.inWord = false := by
          rcases h with h | h
          · rw [hc] at h
            cases h
          · exact h
        cases t with
        | mark d =>
            have hd : isWordChar d = false := ht
            simp [lexemes, Lexeme.consMark, hd]
        | name _ | literal _ | unclosed _ => rfl
  · rfl

/-- **Tokens may be cut anywhere but inside a word.** -/
theorem lexemes_append : ∀ {ts us : List Token},
    endsInWord ts = false ∨ startsInWord us = false →
      lexemes (ts ++ us) = lexemes ts ++ lexemes us
  | [], _, _ => rfl
  | [.mark c], _, h => lexemes_mark_cons h
  | [.name _], _, _ | [.literal _], _, _ | [.unclosed _], _, _ => rfl
  | t :: u :: ts, us, h => by
      have hlast : endsInWord (t :: u :: ts) = endsInWord (u :: ts) := by
        rw [endsInWord, endsInWord, List.getLast?_cons_cons]
      have ih : lexemes (u :: ts ++ us) = lexemes (u :: ts) ++ lexemes us :=
        lexemes_append (hlast ▸ h)
      obtain ⟨l, ls, hls⟩ : ∃ l ls, lexemes (u :: ts) = l :: ls :=
        List.exists_cons_of_ne_nil lexemes_ne_nil
      cases t with
      | mark c =>
          show Lexeme.consMark c (lexemes (u :: ts ++ us)) =
            Lexeme.consMark c (lexemes (u :: ts)) ++ lexemes us
          rw [ih, hls]
          unfold Lexeme.consMark
          split
          · cases l <;> rfl
          · rfl
      | name ident => exact congrArg (Lexeme.name ident :: ·) ih
      | literal s => exact congrArg (Lexeme.literal s :: ·) ih
      | unclosed s => exact congrArg (Lexeme.unclosed s :: ·) ih

/-- Letters and digits make one word. -/
theorem lexemes_word {c : Char} {cs : List Char} (h : (c :: cs).all isWordChar = true) :
    lexemes ((c :: cs).map .mark) = [.word (String.ofList (c :: cs))] := by
  induction cs generalizing c with
  | nil =>
      have hc : isWordChar c = true := by simpa using h
      simp [lexemes, Lexeme.consMark, hc]
  | cons d cs ih =>
      rw [List.all_cons, Bool.and_eq_true] at h
      rw [List.map_cons, lexemes, ih h.2]
      unfold Lexeme.consMark
      rw [if_pos h.1]
      simp

/-- Every backend writes the lexeme alike, and none writes it where another writes something
else. -/
def Lexeme.isShared : Lexeme → Bool
  | word s => !(["LIKE", "ILIKE", "CAST"].contains s)
  | sign c => !(['?', '$', ':'].contains c)
  | name _ | literal _ | unclosed _ => true

end ResourceQuery.Sql

namespace ResourceQuery
open Sql (Lexeme lexemes startsInWord endsInWord)

namespace Piece

/-- A plain piece whose words every backend writes alike. -/
def Neutral : Piece → Prop
  | .words s => (words s).Plain ∧ (lexemes (Sql.tokens s)).all Lexeme.isShared = true
  | .name _ | .asText _ | .hole _ | .likeness _ | .window _ _ => True

instance : ∀ p : Piece, Decidable p.Neutral
  | .words s => inferInstanceAs
      (Decidable ((words s).Plain ∧ (lexemes (Sql.tokens s)).all Lexeme.isShared = true))
  | .name _ | .asText _ | .hole _ | .likeness _ | .window _ _ => inferInstanceAs (Decidable True)

theorem Neutral.plain {p : Piece} (h : p.Neutral) : p.Plain := by
  cases p with
  | words s => exact h.1
  | name _ | asText _ | hole _ | likeness _ | window _ _ => trivial

/-- The piece starts with a name, a word or a value's place. -/
def startsSolid : Piece → Bool
  | words s => startsInWord (Sql.tokens s)
  | name _ | asText _ | hole _ | likeness _ | window _ _ => true

/-- The piece ends with a name, a word or a value's place. -/
def endsSolid : Piece → Bool
  | words s => endsInWord (Sql.tokens s)
  | name _ | asText _ | hole _ | likeness _ | window _ _ => true

/-- No name, word or value's place touches one of another piece. -/
def Spaced : List Piece → Prop
  | [] => True
  | p :: ps => p.Neutral ∧ (p.endsSolid = true → ps.head?.any startsSolid = false) ∧ Spaced ps

/-- Words that may stand between any pieces. -/
structure Separates (s : String) : Prop where
  neutral : (words s).Neutral
  starts : (words s).startsSolid = false
  ends : (words s).endsSolid = false

instance (s : String) : Decidable (Separates s) :=
  decidable_of_iff
    ((words s).Neutral ∧ (words s).startsSolid = false ∧ (words s).endsSolid = false)
    ⟨fun ⟨h, hs, he⟩ => ⟨h, hs, he⟩, fun h => ⟨h.neutral, h.starts, h.ends⟩⟩

namespace Spaced

variable {p : Piece} {ps qs : List Piece} {s : String}

theorem single (hp : p.Neutral) : Spaced [p] :=
  ⟨hp, fun _ => rfl, trivial⟩

theorem cons (hp : p.Neutral) (hnext : ps.head?.any startsSolid = false) (hps : Spaced ps) :
    Spaced (p :: ps) :=
  ⟨hp, fun _ => hnext, hps⟩

/-- Pieces that end with a mark may stand before any other. -/
theorem ofOpen (hp : p.Neutral) (hend : p.endsSolid = false) (hps : Spaced ps) :
    Spaced (p :: ps) := by
  refine ⟨hp, fun h => ?_, hps⟩
  rw [hend] at h
  cases h

theorem separator (hs : Separates s) (hps : Spaced ps) : Spaced (words s :: ps) :=
  ofOpen hs.neutral hs.ends hps

/-- Any piece, then separating words. -/
theorem before (hp : p.Neutral) (hs : Separates s) (hps : Spaced ps) :
    Spaced (p :: words s :: ps) :=
  cons hp hs.starts (separator hs hps)

theorem append (hps : Spaced ps) (hqs : Spaced qs) (h : qs.head?.any startsSolid = false) :
    Spaced (ps ++ qs) := by
  induction ps with
  | nil => exact hqs
  | cons p ps ih =>
      obtain ⟨hp, hnext, htail⟩ := hps
      refine ⟨hp, fun he => ?_, ih htail⟩
      cases ps with
      | nil => exact h
      | cons q ps => exact hnext he

/-- Any pieces, separating words, then any pieces. -/
theorem append_words (hps : Spaced ps) (hs : Separates s) (hqs : Spaced qs) :
    Spaced (ps ++ words s :: qs) :=
  hps.append (separator hs hqs) hs.starts

theorem joined (hs : Separates s) :
    ∀ {parts : List (List Piece)}, (∀ part ∈ parts, Spaced part) → Spaced (Piece.joined s parts)
  | [], _ => trivial
  | [part], h => h part List.mem_cons_self
  | part :: _ :: _, h =>
      (h part List.mem_cons_self).append_words hs
        (joined hs fun q hq => h q (List.mem_cons_of_mem part hq))

theorem all_neutral : ∀ {ps : List Piece}, Spaced ps → ∀ p ∈ ps, p.Neutral
  | [], _ => by simp
  | p :: ps, ⟨hp, _, htail⟩ => by
      intro q hq
      rcases List.mem_cons.mp hq with rfl | hq
      · exact hp
      · exact htail.all_neutral q hq

/-- No two names touch, either. -/
theorem tidy : ∀ {ps : List Piece}, Spaced ps → Tidy ps
  | [], _ => trivial
  | p :: ps, ⟨hp, hnext, htail⟩ => by
      refine ⟨hp.plain, fun hname => ?_, htail.tidy⟩
      have hends : p.endsSolid = true := by
        cases p with
        | words s => cases hname
        | name _ | asText _ | hole _ | likeness _ | window _ _ => rfl
      have hstart := hnext hends
      cases ps with
      | nil => rfl
      | cons q ps =>
          cases q with
          | words s => rfl
          | name _ | asText _ | hole _ | likeness _ | window _ _ => cases hstart

end Spaced

/-! ### The lexemes of spaced pieces -/

/-- Words are no empty text. -/
theorem tokens_words_ne_nil {s : String} (h : (words s).Plain) : Sql.tokens s ≠ [] := by
  obtain ⟨hne, rfl | hquoteless⟩ := h
  · decide
  · have hchars : Sql.quoteless ((words s).chars .sqlite) = true := hquoteless
    have htokens : Sql.tokens s = s.toList.map .mark := tokens_of_quoteless hchars
    rw [htokens, ne_eq, List.map_eq_nil_iff, String.toList_eq_nil_iff]
    exact hne

theorem endsInWord_tokens {p : Piece} (h : p.endsSolid = false) (b : Backend) :
    endsInWord (p.tokens b) = false := by
  cases p with
  | words s => exact h
  | name _ | asText _ | hole _ | likeness _ | window _ _ => cases h

theorem Spaced.startsInWord_flatMap {ps : List Piece} (hps : Spaced ps)
    (h : ps.head?.any startsSolid = false) (b : Backend) :
    startsInWord (ps.flatMap (tokens b)) = false := by
  cases ps with
  | nil => rfl
  | cons p ps =>
      cases p with
      | words s =>
          obtain ⟨t, ts, hts⟩ := List.exists_cons_of_ne_nil (tokens_words_ne_nil hps.1.1)
          have hstart : startsInWord (Sql.tokens s) = false := h
          rw [hts] at hstart
          show startsInWord (Sql.tokens s ++ ps.flatMap (tokens b)) = false
          rw [hts]
          exact hstart
      | name _ | asText _ | hole _ | likeness _ | window _ _ => cases h

/-- **The lexemes of spaced pieces are those of each, one piece after the other.** -/
theorem Spaced.lexemes_flatMap : ∀ {ps : List Piece}, Spaced ps → ∀ b : Backend,
    lexemes (ps.flatMap (tokens b)) = ps.flatMap fun p => lexemes (p.tokens b)
  | [], _, _ => rfl
  | p :: ps, h, b => by
      obtain ⟨-, hnext, htail⟩ := h
      have hcut : endsInWord (p.tokens b) = false ∨
          startsInWord (ps.flatMap (tokens b)) = false := by
        cases hend : p.endsSolid with
        | false => exact .inl (endsInWord_tokens hend b)
        | true => exact .inr (htail.startsInWord_flatMap (hnext hend) b)
      rw [List.flatMap_cons, List.flatMap_cons, Sql.lexemes_append hcut, htail.lexemes_flatMap b]

/-- The lexemes of a text are those of its pieces. -/
theorem Spaced.lexemes_text {ps : List Piece} (h : Spaced ps) (b : Backend) :
    lexemes (Sql.tokens (text b ps)) = ps.flatMap fun p => lexemes (p.tokens b) := by
  rw [tokens_text h.tidy, h.lexemes_flatMap b]

end Piece

/-! ### The text of a condition is spaced -/

theorem Predicate.spaced_holes (n count : Nat) : Piece.Spaced (holes n count) := by
  refine .joined (by decide) fun part h => ?_
  obtain ⟨i, -, rfl⟩ := List.mem_map.mp h
  exact .single trivial

namespace Form

open Piece (Separates Spaced)

mutual

theorem spaced_pieces (n : Nat) : ∀ f : Form, Spaced (f.pieces n)
  | compare c op => by
      have hsign : Separates (" " ++ op.sign ++ " ") := by cases op <;> decide
      exact .before trivial hsign (.single trivial)
  | isNull c negated => by
      cases negated with
      | false => exact .cons trivial (by decide) (.single (by decide))
      | true => exact .cons trivial (by decide) (.single (by decide))
  | like c cast negated => by
      have hspace : Separates " " := by decide
      have hescape : Separates " ESCAPE '\\'" := by decide
      have hmatch : Spaced [.likeness negated, .words " ", .hole (n + 1), .words " ESCAPE '\\'"] :=
        .before trivial hspace (.before trivial hescape trivial)
      cases cast <;> exact .before trivial hspace hmatch
  | inList c count negated => by
      have hopen : Separates (if negated then " NOT IN (" else " IN (") := by
        cases negated <;> decide
      have hclose : Separates ")" := by decide
      exact .before trivial hopen ((Predicate.spaced_holes n count).append_words hclose trivial)
  | between c => by
      have hbetween : Separates " BETWEEN " := by decide
      have hand : Separates " AND " := by decide
      exact .before trivial hbetween (.before trivial hand (.single trivial))
  | any fs => by
      have hopen : Separates "(" := by decide
      have hor : Separates " OR " := by decide
      have hclose : Separates ")" := by decide
      exact .separator hopen ((spaced_piecesList hor n fs).append_words hclose trivial)
termination_by structural f => f

theorem spaced_piecesList {sep : String} (hsep : Separates sep) (n : Nat) :
    ∀ fs : List Form, Spaced (piecesList sep n fs)
  | [] => trivial
  | [f] => spaced_pieces n f
  | f :: g :: fs =>
      (spaced_pieces n f).append_words hsep (spaced_piecesList hsep (n + f.arity) (g :: fs))
termination_by structural fs => fs

end

theorem spaced_whereClause (n : Nat) : ∀ fs : List Form, Spaced (whereClause n fs)
  | [] => trivial
  | f :: fs => by
      have hwhere : Separates " WHERE " := by decide
      have hand : Separates " AND " := by decide
      exact .separator hwhere (spaced_piecesList hand n (f :: fs))

end Form
end ResourceQuery
