import Mathlib.Data.List.Basic
import ResourceQuery.Proofs.Sql.Form
import ResourceQuery.Proofs.Text.Numeral

/-!
# Sql — Token

The text of a statement as a database takes it apart: what stands between double quotes is a name,
what stands between single quotes is a literal, and every other character is a mark of its own.
Inside a quotation its quote is written twice.

* `tokens_text`: where no two names of a list of pieces touch (`Piece.Tidy`), the tokens of the text
  are those of the pieces, one piece after the other.  No quotation reaches beyond its piece,
  whatever characters the names are made of.
* `name_mem_tokens_text`: so the names a database finds in the text are those of the pieces.
-/

namespace ResourceQuery.Sql

/-- A token of a statement. -/
inductive Token where
  /-- A character outside quotation marks. -/
  | mark (c : Char)
  /-- What stands between double quotes. -/
  | name (ident : String)
  /-- What stands between single quotes. -/
  | literal (s : String)
  /-- A quotation without an end. -/
  | unclosed (s : String)
  deriving DecidableEq, Repr

/-- Characters outside quotation marks. -/
def marks (s : String) : List Token :=
  s.toList.map .mark

/-- The character starts a quotation. -/
def isQuote (c : Char) : Bool :=
  c == '"' || c == '\''

/-- No character of a text starts a quotation. -/
def quoteless (cs : List Char) : Bool :=
  cs.all fun c => !isQuote c

theorem quoteless_cons {c : Char} {cs : List Char} :
    quoteless (c :: cs) = true ↔ isQuote c = false ∧ quoteless cs = true := by
  rw [quoteless, List.all_cons, Bool.and_eq_true, Bool.not_eq_true']
  rfl

theorem quoteless_append {cs ds : List Char} (hcs : quoteless cs = true)
    (hds : quoteless ds = true) : quoteless (cs ++ ds) = true := by
  rw [quoteless, List.all_append, Bool.and_eq_true]
  exact ⟨hcs, hds⟩

/-- Where the reading of a text stands; what a quotation holds so far is kept last character
first. -/
inductive Reading where
  | outside
  | inside (quote : Char) (read : List Char)
  /-- After a quote that ends the quotation, unless another one follows. -/
  | closing (quote : Char) (read : List Char)

namespace Reading

/-- The token of a quotation. -/
def quotation (quote : Char) (read : List Char) : Token :=
  if quote = '"' then .name (String.ofList read.reverse) else .literal (String.ofList read.reverse)

/-- A character read outside quotation marks. -/
def start (c : Char) : List Token × Reading :=
  if isQuote c then ([], .inside c []) else ([.mark c], .outside)

/-- The tokens that a character completes, and where the reading stands after it. -/
def next : Reading → Char → List Token × Reading
  | outside, c => start c
  | inside quote read, c =>
      if c = quote then ([], .closing quote read) else ([], .inside quote (c :: read))
  | closing quote read, c =>
      -- a quote written twice stands for itself
      if c = quote then ([], .inside quote (c :: read))
      else (quotation quote read :: (start c).1, (start c).2)

/-- The tokens that the end of the text completes. -/
def finish : Reading → List Token
  | outside => []
  | inside _ read => [.unclosed (String.ofList read.reverse)]
  | closing quote read => [quotation quote read]

/-- The tokens of what is left of a text. -/
def tokens (r : Reading) : List Char → List Token
  | [] => r.finish
  | c :: cs => (r.next c).1 ++ (r.next c).2.tokens cs

end Reading

/-- The tokens of a text. -/
def tokens (s : String) : List Token :=
  Reading.outside.tokens s.toList

/-! ### Reading a piece -/

namespace Reading

/-- Characters that are no quotes are marks. -/
theorem tokens_outside_append {cs : List Char} (h : quoteless cs = true) (ds : List Char) :
    outside.tokens (cs ++ ds) = cs.map .mark ++ outside.tokens ds := by
  induction cs with
  | nil => rfl
  | cons c cs ih =>
      obtain ⟨hquote, hcs⟩ := quoteless_cons.mp h
      have hc : start c = ([.mark c], .outside) := by simp [start, hquote]
      have hcs := ih hcs
      show (start c).1 ++ (start c).2.tokens (cs ++ ds) = _
      rw [hc, hcs]
      rfl

/-- A quotation ends where its quote is not written twice. -/
theorem tokens_closing {quote : Char} {ds : List Char} (h : ds.head? ≠ some quote)
    (read : List Char) :
    (closing quote read).tokens ds = quotation quote read :: outside.tokens ds := by
  cases ds with
  | nil => rfl
  | cons d ds =>
      have hd : d ≠ quote := fun e => h (congrArg some e)
      simp only [tokens, next, if_neg hd, List.cons_append]

/-- A name is read back from between its quotes. -/
theorem tokens_inside_doubleQuotes (cs ds read : List Char) :
    (inside '"' read).tokens (Piece.doubleQuotes cs ++ '"' :: ds) =
      (closing '"' (cs.reverse ++ read)).tokens ds := by
  induction cs generalizing read with
  | nil => rfl
  | cons c cs ih =>
      rw [List.reverse_cons, List.append_assoc]
      by_cases hc : c = '"'
      · subst hc
        show (inside '"' ('"' :: read)).tokens (Piece.doubleQuotes cs ++ '"' :: ds) = _
        exact ih ('"' :: read)
      · simp only [Piece.doubleQuotes, if_neg hc, List.cons_append, tokens, next, List.nil_append]
        exact ih (c :: read)

theorem tokens_quotedName (ident : String) {ds : List Char} (h : ds.head? ≠ some '"') :
    outside.tokens (Piece.quotedName ident ++ ds) = .name ident :: outside.tokens ds := by
  have hread : Piece.quotedName ident ++ ds =
      '"' :: (Piece.doubleQuotes ident.toList ++ '"' :: ds) := by
    simp [Piece.quotedName]
  rw [hread]
  show (inside '"' []).tokens (Piece.doubleQuotes ident.toList ++ '"' :: ds) = _
  rw [tokens_inside_doubleQuotes, tokens_closing h]
  simp [quotation]

end Reading

end ResourceQuery.Sql

namespace ResourceQuery
open Sql (Token Reading isQuote quoteless quoteless_append marks)

namespace Piece

/-- The piece writes a name. -/
def isName (p : Piece) : Bool :=
  p.ident?.isSome

/-- Words without quotes, apart from the clause that makes the backslash the escape character. -/
def Plain : Piece → Prop
  | .words s => s ≠ "" ∧ (s = " ESCAPE '\\'" ∨ quoteless s.toList = true)
  | .name _ | .asText _ | .hole _ | .likeness _ | .window _ _ => True

instance : ∀ p : Piece, Decidable p.Plain
  | .words s =>
      inferInstanceAs (Decidable (s ≠ "" ∧ (s = " ESCAPE '\\'" ∨ quoteless s.toList = true)))
  | .name _ | .asText _ | .hole _ | .likeness _ | .window _ _ => inferInstanceAs (Decidable True)

/-- The first of some pieces writes a name. -/
def startsWithName : List Piece → Bool
  | [] => false
  | p :: _ => p.isName

/-- All words are plain, and no two names touch. -/
def Tidy : List Piece → Prop
  | [] => True
  | p :: ps => p.Plain ∧ (p.isName = true → startsWithName ps = false) ∧ Tidy ps

/-- The tokens of a piece. -/
def tokens (b : Backend) (p : Piece) : List Token :=
  Reading.outside.tokens (p.chars b)

/-! ### The tokens of a tidy list -/

/-- Digits are no quotes. -/
theorem quoteless_toString (n : Nat) : quoteless (toString n).toList = true := by
  rw [quoteless, List.all_eq_true]
  intro c hc
  have hdigit : c.isDigit = true := Text.isDigit_of_mem_toString hc
  rw [Bool.not_eq_true']
  by_contra hquote
  rw [Bool.not_eq_false, isQuote, Bool.or_eq_true, beq_iff_eq, beq_iff_eq] at hquote
  rcases hquote with rfl | rfl
  · cases hdigit
  · cases hdigit

theorem quoteless_hole (b : Backend) (k : Nat) : quoteless ((hole k).chars b) = true := by
  cases b with
  | sqlite => rfl
  | postgres =>
      have hdollar : quoteless ['$'] = true := rfl
      exact quoteless_append hdollar (quoteless_toString k)

theorem quoteless_likeness (b : Backend) (negated : Bool) :
    quoteless ((likeness negated).chars b) = true := by
  cases b <;> cases negated <;> rfl

theorem quoteless_window (b : Backend) (limit offset : Nat) :
    quoteless ((window limit offset).chars b) = true := by
  have hlimit : quoteless "LIMIT ".toList = true := rfl
  have hoffset : quoteless " OFFSET ".toList = true := rfl
  have hsize := quoteless_append hlimit (quoteless_toString limit)
  rw [chars_window, String.toList_append, String.toList_append, String.toList_append]
  exact quoteless_append (quoteless_append hsize hoffset) (quoteless_toString offset)

/-- A plain piece writes a name, or is the escape clause, or has no quotes. -/
theorem Plain.cases {p : Piece} (hp : p.Plain) :
    (∃ ident, p = name ident) ∨ (∃ ident, p = asText ident) ∨ p = words " ESCAPE '\\'" ∨
      p.ident? = none ∧ ∀ b, quoteless (p.chars b) = true := by
  cases p with
  | words s =>
      rcases hp.2 with rfl | h
      · exact .inr (.inr (.inl rfl))
      · exact .inr (.inr (.inr ⟨rfl, fun _ => h⟩))
  | name ident => exact .inl ⟨ident, rfl⟩
  | asText ident => exact .inr (.inl ⟨ident, rfl⟩)
  | hole k => exact .inr (.inr (.inr ⟨rfl, fun b => quoteless_hole b k⟩))
  | likeness negated => exact .inr (.inr (.inr ⟨rfl, fun b => quoteless_likeness b negated⟩))
  | window limit offset =>
      exact .inr (.inr (.inr ⟨rfl, fun b => quoteless_window b limit offset⟩))

theorem tokens_of_quoteless {p : Piece} {b : Backend} (h : quoteless (p.chars b) = true) :
    p.tokens b = (p.chars b).map .mark := by
  have hend := Reading.tokens_outside_append h []
  rw [List.append_nil] at hend
  rw [tokens, hend]
  exact List.append_nil _

theorem tokens_name (b : Backend) (ident : String) : (name ident).tokens b = [.name ident] := by
  have h : Reading.outside.tokens (quotedName ident ++ []) = [.name ident] :=
    Reading.tokens_quotedName ident nofun
  rwa [List.append_nil] at h

theorem tokens_asText_append (b : Backend) (ident : String) (ds : List Char) :
    Reading.outside.tokens ((asText ident).chars b ++ ds) =
      (match b with
        | .sqlite => marks "CAST(" ++ .name ident :: marks " AS TEXT)"
        | .postgres => .name ident :: marks "::TEXT") ++ Reading.outside.tokens ds := by
  cases b with
  | sqlite =>
      have hcast : quoteless "CAST(".toList = true := rfl
      have hend : quoteless " AS TEXT)".toList = true := rfl
      rw [chars_asText_sqlite, List.append_assoc, List.append_assoc,
        Reading.tokens_outside_append hcast, Reading.tokens_quotedName ident (by simp),
        Reading.tokens_outside_append hend]
      simp [marks]
  | postgres =>
      have hend : quoteless "::TEXT".toList = true := rfl
      rw [chars_asText_postgres, List.append_assoc, Reading.tokens_quotedName ident (by simp),
        Reading.tokens_outside_append hend]
      rfl

theorem tokens_escape_append {ds : List Char} (h : ds.head? ≠ some '\'') :
    Reading.outside.tokens (" ESCAPE '\\'".toList ++ ds) =
      marks " ESCAPE " ++ .literal "\\" :: Reading.outside.tokens ds := by
  have hwords : quoteless " ESCAPE ".toList = true := rfl
  have hsplit : " ESCAPE '\\'".toList ++ ds =
      " ESCAPE ".toList ++ ('\'' :: '\\' :: '\'' :: ds) := rfl
  rw [hsplit, Reading.tokens_outside_append hwords]
  show _ ++ (Reading.closing '\'' ['\\']).tokens ds = _
  rw [Reading.tokens_closing h]
  rfl

/-- A tidy list starts with no single quote, and with a double quote only if its first piece writes
a name. -/
theorem Tidy.head?_chars {ps : List Piece} (h : Tidy ps) (b : Backend) :
    (ps.flatMap (chars b)).head? ≠ some '\'' ∧
      (startsWithName ps = false → (ps.flatMap (chars b)).head? ≠ some '"') := by
  cases ps with
  | nil => exact ⟨nofun, fun _ => nofun⟩
  | cons p ps =>
      have hquote : ∀ {c cs}, p.chars b = c :: cs → isQuote c = false →
          ((p :: ps).flatMap (chars b)).head? ≠ some '\'' ∧
            (startsWithName (p :: ps) = false →
              ((p :: ps).flatMap (chars b)).head? ≠ some '"') := by
        intro c cs hcs hc
        rw [List.flatMap_cons, hcs, List.cons_append, List.head?_cons]
        refine ⟨fun e => ?_, fun _ e => ?_⟩
        · cases e; exact absurd hc (by decide)
        · cases e; exact absurd hc (by decide)
      cases p with
      | words s =>
          cases hs : s.toList with
          | nil => exact absurd (String.toList_eq_nil_iff.mp hs) h.1.1
          | cons c cs =>
              refine hquote hs ?_
              rcases h.1.2 with rfl | hall
              · cases hs; rfl
              · rw [hs] at hall
                exact (Sql.quoteless_cons.mp hall).1
      | name ident => exact ⟨nofun, nofun⟩
      | asText ident => cases b <;> exact ⟨nofun, nofun⟩
      | hole k => cases b <;> exact hquote rfl (by decide)
      | likeness negated => cases b <;> cases negated <;> exact hquote rfl (by decide)
      | window limit offset =>
          exact hquote (c := 'L') (by simp [chars_window]; rfl) (by decide)

theorem tokens_asText (b : Backend) (ident : String) :
    (asText ident).tokens b =
      match b with
      | .sqlite => marks "CAST(" ++ .name ident :: marks " AS TEXT)"
      | .postgres => .name ident :: marks "::TEXT" := by
  have h := tokens_asText_append b ident []
  rw [List.append_nil] at h
  rw [tokens, h]
  exact List.append_nil _

theorem tokens_escape (b : Backend) :
    (words " ESCAPE '\\'").tokens b = marks " ESCAPE " ++ [.literal "\\"] := by
  have h : ([] : List Char).head? ≠ some '\'' := nofun
  exact tokens_escape_append h

/-- A plain piece is read the same, whatever follows it. -/
theorem tokens_append {p : Piece} (hp : p.Plain) (b : Backend) {ds : List Char}
    (hsingle : ds.head? ≠ some '\'') (hdouble : p.isName = true → ds.head? ≠ some '"') :
    Reading.outside.tokens (p.chars b ++ ds) = p.tokens b ++ Reading.outside.tokens ds := by
  rcases hp.cases with ⟨ident, rfl⟩ | ⟨ident, rfl⟩ | rfl | ⟨-, h⟩
  · rw [tokens_name]
    exact Reading.tokens_quotedName ident (hdouble rfl)
  · rw [tokens_asText_append, tokens_asText]
  · rw [tokens_escape, List.append_assoc]
    exact tokens_escape_append hsingle
  · rw [tokens_of_quoteless (h b), Reading.tokens_outside_append (h b)]

/-- **The tokens of a text are those of its pieces.** -/
theorem tokens_text {ps : List Piece} (h : Tidy ps) (b : Backend) :
    Sql.tokens (text b ps) = ps.flatMap (tokens b) := by
  rw [Sql.tokens, text, String.toList_ofList]
  induction ps with
  | nil => rfl
  | cons p ps ih =>
      obtain ⟨hp, hnext, htail⟩ := h
      -- no quote follows that the piece could take for its own
      have hhead := htail.head?_chars b
      rw [List.flatMap_cons, List.flatMap_cons,
        tokens_append hp b hhead.1 fun hn => hhead.2 (hnext hn), ih htail]

/-- The name in the text of a piece is the one it writes. -/
theorem name_mem_tokens_iff {p : Piece} (hp : p.Plain) (b : Backend) (ident : String) :
    Token.name ident ∈ p.tokens b ↔ p.ident? = some ident := by
  rcases hp.cases with ⟨i, rfl⟩ | ⟨i, rfl⟩ | rfl | ⟨hn, h⟩
  · rw [tokens_name, List.mem_singleton, ident?, Option.some.injEq, Token.name.injEq]
    exact eq_comm
  · rw [tokens_asText]
    cases b <;> simp [marks, ident?, eq_comm]
  · rw [tokens_escape]
    simp [marks, ident?]
  · rw [tokens_of_quoteless (h b), hn]
    simp

theorem Tidy.plain {ps : List Piece} (h : Tidy ps) : ∀ p ∈ ps, p.Plain := by
  induction ps with
  | nil => nofun
  | cons p ps ih =>
      intro q hq
      rcases List.mem_cons.mp hq with rfl | hq
      · exact h.1
      · exact ih h.2.2 q hq

/-- The names in the tokens of some pieces are those they write. -/
theorem name_mem_flatMap_iff {ps : List Piece} (h : ∀ p ∈ ps, p.Plain) (b : Backend)
    (ident : String) : Token.name ident ∈ ps.flatMap (tokens b) ↔ ident ∈ idents ps := by
  rw [List.mem_flatMap, idents, List.mem_filterMap]
  constructor
  · rintro ⟨p, hp, hi⟩
    exact ⟨p, hp, (name_mem_tokens_iff (h p hp) b ident).mp hi⟩
  · rintro ⟨p, hp, hi⟩
    exact ⟨p, hp, (name_mem_tokens_iff (h p hp) b ident).mpr hi⟩

/-- **The names in a text are those its pieces write.** -/
theorem name_mem_tokens_text {ps : List Piece} (h : Tidy ps) (b : Backend) (ident : String) :
    Token.name ident ∈ Sql.tokens (text b ps) ↔ ident ∈ idents ps := by
  rw [tokens_text h]
  exact name_mem_flatMap_iff h.plain b ident

end Piece

end ResourceQuery
