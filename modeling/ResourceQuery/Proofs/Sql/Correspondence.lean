import ResourceQuery.Proofs.Sql.Form
import ResourceQuery.Proofs.Sql.Lexeme

/-!
# Sql — Correspondence

The two spellings of one text.  `Corresponds n ls ms m` reads the lexemes of both side by side, from
after the `n`-th bound value to after the `m`-th.

* `Corresponds.append`: a correspondence goes on where another one ends.
* `Piece.Spaced.corresponds`: the spellings of spaced pieces correspond, if the places are numbered
  in turn.
-/

namespace ResourceQuery.Sql

/-- The lexemes for SQLite and those for PostgreSQL are the same, but for the places of bound
values, for matching and for casts. -/
inductive Corresponds : Nat → List Lexeme → List Lexeme → Nat → Prop where
  | nil {n : Nat} : Corresponds n [] [] n
  | shared {n m : Nat} {l : Lexeme} {ls ms : List Lexeme} (h : l.isShared = true)
      (rest : Corresponds n ls ms m) : Corresponds n (l :: ls) (l :: ms) m
  /-- The place of the next bound value. -/
  | place {n m : Nat} {ls ms : List Lexeme} (rest : Corresponds (n + 1) ls ms m) :
      Corresponds n (.sign '?' :: ls) (.sign '$' :: .word (toString (n + 1)) :: ms) m
  | like {n m : Nat} {ls ms : List Lexeme} (rest : Corresponds n ls ms m) :
      Corresponds n (.word "LIKE" :: ls) (.word "ILIKE" :: ms) m
  | cast {n m : Nat} {ls ms : List Lexeme} (ident : String) (rest : Corresponds n ls ms m) :
      Corresponds n
        (.word "CAST" :: .sign '(' :: .name ident :: .sign ' ' :: .word "AS" :: .sign ' ' ::
          .word "TEXT" :: .sign ')' :: ls)
        (.name ident :: .sign ':' :: .sign ':' :: .word "TEXT" :: ms) m

namespace Corresponds

/-- **A correspondence goes on where another one ends.** -/
theorem append {n m k : Nat} {ls ms ls' ms' : List Lexeme} (h : Corresponds n ls ms m)
    (h' : Corresponds m ls' ms' k) : Corresponds n (ls ++ ls') (ms ++ ms') k := by
  induction h with
  | nil => exact h'
  | shared hl _ ih => exact .shared hl (ih h')
  | place _ ih => exact .place (ih h')
  | like _ ih => exact .like (ih h')
  | cast ident _ ih => exact .cast ident (ih h')

/-- Lexemes that all backends write alike correspond to themselves. -/
theorem ofShared {n : Nat} : ∀ {ls : List Lexeme}, ls.all Lexeme.isShared = true →
    Corresponds n ls ls n
  | [], _ => .nil
  | l :: ls, h => by
      rw [List.all_cons, Bool.and_eq_true] at h
      exact .shared h.1 (ofShared h.2)

end Corresponds

/-! ### Numbers -/

theorem isWordChar_of_isDigit {c : Char} (h : c.isDigit = true) : isWordChar c = true := by
  simp [isWordChar, Char.isAlphanum, h]

/-- A number is one word. -/
theorem lexemes_number (n : Nat) : lexemes (marks (toString n)) = [.word (toString n)] := by
  cases hcs : (toString n).toList with
  | nil => exact absurd hcs (Text.toString_toList_ne_nil n)
  | cons c cs =>
      have hword : (c :: cs).all isWordChar = true := by
        rw [List.all_eq_true]
        intro d hd
        exact isWordChar_of_isDigit (Text.isDigit_of_mem_toString (hcs ▸ hd))
      rw [marks, hcs, lexemes_word hword, ← hcs, String.ofList_toList]

/-- No number is a word that backends write differently. -/
theorem isShared_number (n : Nat) : (Lexeme.word (toString n)).isShared = true := by
  have hletters : (["LIKE", "ILIKE", "CAST"].all fun w => !(w.toList.all Char.isDigit)) = true := by
    decide
  have hdigits : (toString n).toList.all Char.isDigit = true :=
    List.all_eq_true.mpr fun _ => Text.isDigit_of_mem_toString
  rw [Lexeme.isShared, Bool.not_eq_true']
  by_contra h
  rw [Bool.not_eq_false, List.contains_iff_mem] at h
  have hletter := List.all_eq_true.mp hletters _ h
  rw [hdigits] at hletter
  cases hletter

end ResourceQuery.Sql

namespace ResourceQuery.Piece
open Sql (Corresponds Lexeme lexemes lexemes_append lexemes_number marks)

/-! ### Pieces -/

/-- The lexemes of a window on the rows. -/
theorem lexemes_window (b : Backend) (limit offset : Nat) :
    lexemes ((window limit offset).tokens b) =
      [.word "LIMIT", .sign ' ', .word (toString limit), .sign ' ', .word "OFFSET", .sign ' ',
        .word (toString offset)] := by
  have htokens : (window limit offset).tokens b =
      marks "LIMIT " ++ (marks (toString limit) ++
        (marks " OFFSET " ++ marks (toString offset))) := by
    rw [tokens_of_quoteless (quoteless_window b limit offset), chars_window]
    simp only [marks, String.toList_append, List.map_append, List.append_assoc]
  have hlimit : lexemes (marks "LIMIT ") = [.word "LIMIT", .sign ' '] := by decide
  have hoffset : lexemes (marks " OFFSET ") = [.sign ' ', .word "OFFSET", .sign ' '] := by decide
  rw [htokens, lexemes_append (.inl (by decide)), lexemes_append (.inr (by rfl)),
    lexemes_append (.inl (by decide)), lexemes_number, lexemes_number, hlimit, hoffset]
  rfl

/-- Both spellings of a piece that is no place correspond. -/
theorem Neutral.corresponds {p : Piece} (hp : p.Neutral) (hplace : p.place? = none) (n : Nat) :
    Corresponds n (lexemes (p.tokens .sqlite)) (lexemes (p.tokens .postgres)) n := by
  cases p with
  | words s => exact .ofShared hp.2
  | name ident =>
      rw [tokens_name, tokens_name]
      exact .ofShared rfl
  | asText ident =>
      rw [tokens_asText, tokens_asText]
      exact .cast ident .nil
  | hole k => cases hplace
  | likeness negated =>
      cases negated with
      | false => exact .like .nil
      | true => exact .shared rfl (.shared rfl (.like .nil))
  | window limit offset =>
      have hlimit : (Lexeme.word (toString limit)).isShared = true := Sql.isShared_number limit
      have hoffset : (Lexeme.word (toString offset)).isShared = true := Sql.isShared_number offset
      rw [lexemes_window, lexemes_window]
      refine .ofShared ?_
      simp only [List.all_cons, hlimit, hoffset]
      rfl

/-- Both spellings of the next place correspond. -/
theorem corresponds_hole (n : Nat) :
    Corresponds n (lexemes ((hole (n + 1)).tokens .sqlite))
      (lexemes ((hole (n + 1)).tokens .postgres)) (n + 1) := by
  have hpostgres : (hole (n + 1)).tokens .postgres = .mark '$' :: marks (toString (n + 1)) :=
    tokens_of_quoteless (quoteless_hole .postgres (n + 1))
  have hcut : lexemes (.mark '$' :: marks (toString (n + 1))) =
      [.sign '$', .word (toString (n + 1))] := by
    rw [Sql.lexemes_mark_cons (.inl (by decide)), lexemes_number]
    rfl
  rw [hpostgres, hcut]
  exact .place .nil

/-- **The spellings of pieces correspond, one piece after the other.** -/
theorem corresponds_flatMap {n count : Nat} {ps : List Piece} (hps : ∀ p ∈ ps, p.Neutral)
    (hplaces : places ps = List.range' (n + 1) count) :
    Corresponds n (ps.flatMap fun p => lexemes (p.tokens .sqlite))
      (ps.flatMap fun p => lexemes (p.tokens .postgres)) (n + count) := by
  induction ps generalizing n count with
  | nil =>
      rw [List.range'_eq_nil_iff.mp hplaces.symm]
      exact .nil
  | cons p ps ih =>
      have hp := hps p List.mem_cons_self
      have htail : ∀ q ∈ ps, q.Neutral := fun q hq => hps q (List.mem_cons_of_mem p hq)
      rw [List.flatMap_cons, List.flatMap_cons]
      cases hk : p.place? with
      | none =>
          rw [places, List.filterMap_cons_none hk] at hplaces
          exact (hp.corresponds hk n).append (ih htail hplaces)
      | some k =>
          rw [places, List.filterMap_cons_some hk] at hplaces
          obtain ⟨rfl, hpos, hrest⟩ := List.range'_eq_cons_iff.mp hplaces.symm
          have hhole : p = hole (n + 1) := by
            cases p with
            | hole k => cases hk; rfl
            | words _ | name _ | asText _ | likeness _ | window _ _ => cases hk
          have hcount : n + count = n + 1 + (count - 1) := by omega
          rw [hhole, hcount]
          exact (corresponds_hole n).append (ih htail hrest)

/-- **The spellings of spaced pieces correspond, if the places are numbered in turn.** -/
theorem Spaced.corresponds {n count : Nat} {ps : List Piece} (h : Spaced ps)
    (hplaces : places ps = List.range' (n + 1) count) :
    Corresponds n (lexemes (Sql.tokens (text .sqlite ps)))
      (lexemes (Sql.tokens (text .postgres ps))) (n + count) := by
  rw [h.lexemes_text, h.lexemes_text]
  exact corresponds_flatMap h.all_neutral hplaces

end ResourceQuery.Piece
