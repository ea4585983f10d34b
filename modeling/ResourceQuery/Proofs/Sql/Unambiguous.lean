import Mathlib.Data.List.Forall2
import ResourceQuery.Proofs.Sql.Lexeme

/-!
# Sql — a clause read back

The text of a clause tells the conditions it was written from, but for the values they bind.

A condition on one column is a `Verb` said of the column: its tokens are some marks, the column's
name, the verb's words and the places of the values (`Verb.tokens_form`).  No verb's words begin
those of another (`Verb.eq_of_isPrefix_words`), so after a name the words tell the verb, and the verb
tells how far the condition reaches.  A group stands between brackets.

* `Form.tokens_cancel`: so the tokens of a form, with whatever follows them, tell the form and what
  follows it.  The `AND` between two bounds is inside the reach of its verb and never joins.
* `Predicate.text_whereClause_eq_iff`: two clauses after equally many values have one text exactly
  if their conditions have the same forms, one by one.
-/

namespace ResourceQuery
open Sql (Token marks)

/-! ### Marks -/

/-- Where the first name stands, and what it is. -/
theorem Sql.marks_name_cancel {s s' : String} {c c' : String} {ds es : List Token}
    (h : marks s ++ .name c :: ds = marks s' ++ .name c' :: es) : s = s' ∧ c = c' ∧ ds = es := by
  have hchars : ∀ cs cs' : List Char,
      cs.map Token.mark ++ .name c :: ds = cs'.map Token.mark ++ .name c' :: es →
        cs = cs' ∧ c = c' ∧ ds = es := by
    intro cs
    induction cs with
    | nil =>
        intro cs' h
        cases cs' with
        | nil => cases h; exact ⟨rfl, rfl, rfl⟩
        | cons d cs' => cases h
    | cons d cs ih =>
        intro cs' h
        cases cs' with
        | nil => cases h
        | cons d' cs' =>
            obtain ⟨hd, h⟩ := List.cons.inj h
            obtain ⟨rfl, hrest⟩ := ih cs' h
            exact ⟨by rw [Token.mark.inj hd], hrest⟩
  obtain ⟨hs, hrest⟩ := hchars _ _ h
  exact ⟨String.toList_inj.mp hs, hrest⟩

/-- Of two texts of marks that begin alike, one begins the other. -/
theorem Sql.prefix_or_prefix_of_marks {s s' : String} {ds es : List Token}
    (h : marks s ++ ds = marks s' ++ es) : s.toList <+: s'.toList ∨ s'.toList <+: s.toList := by
  have hinj : ∀ c d, Token.mark c = Token.mark d → c = d := fun _ _ => Token.mark.inj
  rcases List.append_eq_append_iff.mp h with ⟨between, hs, -⟩ | ⟨between, hs, -⟩
  · exact .inl ((List.prefix_map_iff_of_injective hinj).mp ⟨between, hs.symm⟩)
  · exact .inr ((List.prefix_map_iff_of_injective hinj).mp ⟨between, hs.symm⟩)

theorem Sql.marks_append (s s' : String) : marks (s ++ s') = marks s ++ marks s' := by
  rw [marks, String.toList_append, List.map_append]
  rfl

/-! ### What is said of a column -/

/-- What a backend writes before a column to take it as text. -/
def castOpen : Backend → String
  | .sqlite => "CAST("
  | .postgres => ""

/-- What a backend writes after a column to take it as text. -/
def castClose : Backend → String
  | .sqlite => " AS TEXT)"
  | .postgres => "::TEXT"

/-- What a condition says of its column, the number of values of a list apart. -/
inductive Verb where
  | compare (op : Comparison)
  | isNull (negated : Bool)
  | like (cast negated : Bool)
  | inList (negated : Bool)
  | between
  deriving DecidableEq, Repr

namespace Verb

/-- Every verb. -/
def all : List Verb :=
  [.compare .eq, .compare .ne, .compare .gt, .compare .lt, .compare .gte, .compare .lte,
    .isNull false, .isNull true, .like false false, .like false true, .like true false,
    .like true true, .inList false, .inList true, .between]

theorem mem_all : ∀ v : Verb, v ∈ all
  | .compare op => by cases op <;> decide
  | .isNull negated => by cases negated <;> decide
  | .like cast negated => by cases cast <;> cases negated <;> decide
  | .inList negated => by cases negated <;> decide
  | .between => by decide

/-- The condition that says it of a column; only a list has a number of values. -/
def form (c : String) (count : Nat) : Verb → Form
  | compare op => .compare c op
  | isNull negated => .isNull c negated
  | like cast negated => .like c cast negated
  | inList negated => .inList c count negated
  | between => .between c

/-- The column is taken as text by a cast. -/
def casts : Verb → Bool
  | like cast _ => cast
  | compare _ | isNull _ | inList _ | between => false

/-- The piece that names the column. -/
def subject (c : String) (v : Verb) : Piece :=
  if v.casts then .asText c else .name c

/-- The pieces after the column, up to the first value. -/
def phrase : Verb → List Piece
  | compare op => [.words (" " ++ op.sign ++ " ")]
  | isNull negated => [.words (if negated then " IS NOT NULL" else " IS NULL")]
  | like _ negated => [.words " ", .likeness negated, .words " "]
  | inList negated => [.words (if negated then " NOT IN (" else " IN (")]
  | between => [.words " BETWEEN "]

/-- The pieces from the first value on, the condition coming after `n` bound values. -/
def ending (n count : Nat) : Verb → List Piece
  | compare _ => [.hole (n + 1)]
  | isNull _ => []
  | like _ _ => [.hole (n + 1), .words " ESCAPE '\\'"]
  | inList _ => Predicate.holes n count ++ [.words ")"]
  | between => [.hole (n + 1), .words " AND ", .hole (n + 2)]

theorem pieces_form (n : Nat) (c : String) (count : Nat) (v : Verb) :
    (v.form c count).pieces n = v.subject c :: (v.phrase ++ v.ending n count) := by
  cases v <;> rfl

/-- What a backend writes before the column's name. -/
def lead (b : Backend) (v : Verb) : String :=
  if v.casts then castOpen b else ""

/-- What a backend writes right after the column's name. -/
def close (b : Backend) (v : Verb) : String :=
  if v.casts then castClose b else ""

/-- What a backend writes after the column's name, up to the first value. -/
def words (b : Backend) (v : Verb) : String :=
  v.close b ++ Piece.text b v.phrase

/-- **No verb's words begin those of another.** -/
theorem eq_of_isPrefix_words {b : Backend} {v v' : Verb}
    (h : (v.words b).toList <+: (v'.words b).toList) : v = v' := by
  have hall : (all.all fun v => all.all fun v' =>
      !((v.words b).toList.isPrefixOf (v'.words b).toList) || v == v') = true := by
    cases b <;> decide +kernel
  have hv := List.all_eq_true.mp (List.all_eq_true.mp hall v v.mem_all) v' v'.mem_all
  rw [List.isPrefixOf_iff_prefix.mpr h] at hv
  exact eq_of_beq hv

theorem tokens_phrase (b : Backend) (v : Verb) :
    v.phrase.flatMap (Piece.tokens b) = marks (Piece.text b v.phrase) := by
  have hall : (all.all fun v =>
      v.phrase.flatMap (Piece.tokens b) == marks (Piece.text b v.phrase)) = true := by
    cases b <;> decide +kernel
  exact eq_of_beq (List.all_eq_true.mp hall v v.mem_all)

theorem tokens_subject (b : Backend) (c : String) (v : Verb) :
    (v.subject c).tokens b = marks (v.lead b) ++ .name c :: marks (v.close b) := by
  rw [subject, lead, close]
  by_cases h : v.casts = true
  · rw [if_pos h, if_pos h, if_pos h, Piece.tokens_asText]
    cases b <;> rfl
  · rw [if_neg h, if_neg h, if_neg h, Piece.tokens_name]
    rfl

end Verb

namespace Form

/-- The tokens of a form after `n` bound values. -/
def tokens (b : Backend) (n : Nat) (f : Form) : List Token :=
  (f.pieces n).flatMap (Piece.tokens b)

/-- The tokens of some forms, `sep` between each two, after `n` bound values. -/
def tokensList (b : Backend) (sep : String) (n : Nat) (fs : List Form) : List Token :=
  (piecesList sep n fs).flatMap (Piece.tokens b)

end Form

/-- The tokens of a condition on a column. -/
theorem Verb.tokens_form (b : Backend) (n : Nat) (c : String) (count : Nat) (v : Verb) :
    (v.form c count).tokens b n =
      marks (v.lead b) ++ .name c ::
        (marks (v.words b) ++ (v.ending n count).flatMap (Piece.tokens b)) := by
  rw [Form.tokens, pieces_form, List.flatMap_cons, List.flatMap_append, tokens_phrase,
    tokens_subject, words, Sql.marks_append, List.append_assoc, List.cons_append,
    List.append_assoc]

/-- Every form is a group, or says something of a column. -/
theorem Form.group_or_verb (f : Form) :
    (∃ fs, f = .any fs) ∨ ∃ v c count, f = Verb.form c count v := by
  cases f with
  | any fs => exact .inl ⟨fs, rfl⟩
  | compare c op => exact .inr ⟨.compare op, c, 0, rfl⟩
  | isNull c negated => exact .inr ⟨.isNull negated, c, 0, rfl⟩
  | like c cast negated => exact .inr ⟨.like cast negated, c, 0, rfl⟩
  | inList c count negated => exact .inr ⟨.inList negated, c, count, rfl⟩
  | between c => exact .inr ⟨.between, c, 0, rfl⟩

/-! ### The places of a list -/

namespace Predicate

theorem holes_cons (n count : Nat) :
    holes n (count + 2) = .hole (n + 1) :: .words ", " :: holes (n + 1) (count + 1) := by
  have hjoined : ∀ (p : List Piece) {ps : List (List Piece)}, ps ≠ [] →
      Piece.joined ", " (p :: ps) = p ++ .words ", " :: Piece.joined ", " ps := by
    intro p ps hps
    cases ps with
    | nil => exact absurd rfl hps
    | cons q ps => rfl
  have hshift : ∀ i, [Piece.hole (n + (i + 1) + 1)] = [Piece.hole (n + 1 + i + 1)] := by
    intro i
    rw [Nat.add_right_comm n 1 i, ← Nat.add_assoc n i 1]
  rw [holes, List.range_succ_eq_map, List.map_cons, List.map_map, hjoined _ (by simp), holes]
  exact congrArg (fun ps => Piece.hole (n + 1) :: .words ", " :: Piece.joined ", " ps)
    (List.map_congr_left fun i _ => hshift i)

/-- The tokens of the places of `count` values after the first `n`. -/
def holesTokens (b : Backend) (n count : Nat) : List Token :=
  (holes n count).flatMap (Piece.tokens b)

theorem holesTokens_one (b : Backend) (n : Nat) :
    holesTokens b n 1 = (Piece.hole (n + 1)).tokens b :=
  List.append_nil _

theorem holesTokens_cons (b : Backend) (n count : Nat) :
    holesTokens b n (count + 2) =
      (Piece.hole (n + 1)).tokens b ++ (marks ", " ++ holesTokens b (n + 1) (count + 1)) := by
  rw [holesTokens, holes_cons, List.flatMap_cons, List.flatMap_cons]
  cases b <;> rfl

/-- A value's place is not taken for a closing bracket. -/
theorem hole_ne_close {b : Backend} {n : Nat} {ds es : List Token} :
    (Piece.hole n).tokens b ++ ds ≠ .mark ')' :: es := by
  cases b <;> exact nofun

/-- The places up to the closing bracket tell how many they are. -/
theorem holesTokens_cancel {b : Backend} :
    ∀ {count count' n : Nat} {ds es : List Token},
      holesTokens b n count ++ .mark ')' :: ds = holesTokens b n count' ++ .mark ')' :: es →
        count = count' ∧ ds = es
  | 0, 0, _, _, _, h => ⟨rfl, (List.cons.inj h).2⟩
  | 0, 1, n, _, _, h => by
      rw [holesTokens_one] at h
      exact absurd h.symm hole_ne_close
  | 0, count' + 2, n, _, _, h => by
      rw [holesTokens_cons, List.append_assoc] at h
      exact absurd h.symm hole_ne_close
  | 1, 0, n, _, _, h => by
      rw [holesTokens_one] at h
      exact absurd h hole_ne_close
  | count + 2, 0, n, _, _, h => by
      rw [holesTokens_cons, List.append_assoc] at h
      exact absurd h hole_ne_close
  | 1, 1, _, _, _, h => ⟨rfl, (List.cons.inj (List.append_cancel_left h)).2⟩
  | 1, count' + 2, n, _, _, h => by
      rw [holesTokens_one, holesTokens_cons, List.append_assoc] at h
      cases List.append_cancel_left h
  | count + 2, 1, n, _, _, h => by
      rw [holesTokens_one, holesTokens_cons, List.append_assoc] at h
      cases List.append_cancel_left h
  | count + 2, count' + 2, n, _, _, h => by
      rw [holesTokens_cons, holesTokens_cons] at h
      simp only [List.append_assoc] at h
      obtain ⟨hcount, hrest⟩ :=
        holesTokens_cancel (List.append_cancel_left (List.append_cancel_left h))
      exact ⟨congrArg (· + 1) hcount, hrest⟩

end Predicate

/-! ### Forms -/

/-- The tokens of a condition on a column tell the condition. -/
theorem Verb.tokens_form_cancel {b : Backend} {n : Nat} {v v' : Verb} {c c' : String}
    {count count' : Nat} {ds es : List Token}
    (h : (v.form c count).tokens b n ++ ds = (v'.form c' count').tokens b n ++ es) :
    v.form c count = v'.form c' count' ∧ ds = es := by
  rw [tokens_form, tokens_form, List.append_assoc, List.append_assoc, List.cons_append,
    List.cons_append] at h
  obtain ⟨-, rfl, hwords⟩ := Sql.marks_name_cancel h
  rw [List.append_assoc, List.append_assoc] at hwords
  have hverb : v = v' := by
    rcases Sql.prefix_or_prefix_of_marks hwords with hprefix | hprefix
    · exact eq_of_isPrefix_words hprefix
    · exact (eq_of_isPrefix_words hprefix).symm
  subst hverb
  have hending := List.append_cancel_left hwords
  cases v with
  | inList negated =>
      -- the closing bracket ends the list
      have hclose : [Piece.words ")"].flatMap (Piece.tokens b) = [.mark ')'] := rfl
      rw [ending, ending, List.flatMap_append, List.flatMap_append, hclose, List.append_assoc,
        List.append_assoc, List.singleton_append, List.singleton_append] at hending
      obtain ⟨rfl, hrest⟩ := Predicate.holesTokens_cancel hending
      exact ⟨rfl, hrest⟩
  | compare _ | isNull _ | like _ _ | between => exact ⟨rfl, List.append_cancel_left hending⟩

namespace Form

variable {b : Backend} {n : Nat} {ds es : List Token}

theorem tokens_any (fs : List Form) :
    (any fs).tokens b n ++ ds = .mark '(' :: (tokensList b " OR " n fs ++ .mark ')' :: ds) := by
  have hopen : (Piece.words "(").tokens b = [.mark '('] := rfl
  have hclose : (Piece.words ")").tokens b = [.mark ')'] := rfl
  rw [tokens, pieces, List.cons_append, List.flatMap_cons, List.flatMap_append,
    List.flatMap_singleton, hopen, hclose, List.append_assoc, List.append_assoc]
  rfl

/-- What is said of a column starts with its name or with a cast. -/
theorem head_tokens_verb (v : Verb) (c : String) (count : Nat) :
    ∃ t ts, (v.form c count).tokens b n = t :: ts ∧ (t = .mark 'C' ∨ t = .name c) := by
  rw [Verb.tokens_form, Verb.lead]
  split
  · cases b with
    | sqlite => exact ⟨_, _, rfl, .inl rfl⟩
    | postgres => exact ⟨_, _, rfl, .inr rfl⟩
  · exact ⟨_, _, rfl, .inr rfl⟩

/-- No form starts with a closing bracket. -/
theorem head_tokens (f : Form) : ∃ t ts, f.tokens b n = t :: ts ∧ t ≠ .mark ')' := by
  rcases f.group_or_verb with ⟨fs, rfl⟩ | ⟨v, c, count, rfl⟩
  · have h : (any fs).tokens b n ++ [] = _ := tokens_any fs
    rw [List.append_nil] at h
    exact ⟨_, _, h, nofun⟩
  · obtain ⟨t, ts, h, rfl | rfl⟩ := head_tokens_verb (b := b) (n := n) v c count
    · exact ⟨_, _, h, by decide⟩
    · exact ⟨_, _, h, nofun⟩

/-- What is said of a column is not taken for a group. -/
theorem tokens_verb_ne_any {v : Verb} {c : String} {count : Nat} {fs : List Form} :
    (v.form c count).tokens b n ++ ds ≠ (any fs).tokens b n ++ es := by
  obtain ⟨t, ts, h, ht⟩ := head_tokens_verb (b := b) (n := n) v c count
  rw [h, tokens_any]
  intro heq
  obtain rfl := (List.cons.inj heq).1
  rcases ht with ht | ht
  · exact absurd ht (by decide)
  · cases ht

theorem tokens_verb_cancel (v : Verb) (c : String) (count : Nat) {g : Form}
    (h : (v.form c count).tokens b n ++ ds = g.tokens b n ++ es) :
    v.form c count = g ∧ ds = es := by
  rcases g.group_or_verb with ⟨gs, rfl⟩ | ⟨v', c', count', rfl⟩
  · exact absurd h tokens_verb_ne_any
  · exact Verb.tokens_form_cancel h

/-! ### Lists of forms -/

theorem tokensList_cons_cons (sep : String) (f g : Form) (gs : List Form) :
    tokensList b sep n (f :: g :: gs) =
      f.tokens b n ++ ((Piece.words sep).tokens b ++ tokensList b sep (n + f.arity) (g :: gs)) := by
  rw [tokensList, piecesList, List.flatMap_append, List.flatMap_cons]
  · rfl
  · exact nofun

theorem head_tokensList (sep : String) (f : Form) (fs : List Form) :
    ∃ t ts, tokensList b sep n (f :: fs) = t :: ts ∧ t ≠ .mark ')' := by
  obtain ⟨t, ts, h, ht⟩ := head_tokens (b := b) (n := n) f
  cases fs with
  | nil => exact ⟨t, ts, h, ht⟩
  | cons g gs => exact ⟨t, _, by rw [tokensList_cons_cons, h]; rfl, ht⟩

/-- What may follow a list of forms: nothing, or a closing bracket. -/
def Closes (ds : List Token) : Prop :=
  ∀ t ts, ds = t :: ts → t = .mark ')'

theorem Closes.ne_tokensList {sep : String} {f : Form} {fs : List Form} (h : Closes ds) :
    ds ≠ tokensList b sep n (f :: fs) ++ es := by
  obtain ⟨t, ts, hlist, ht⟩ := head_tokensList (b := b) (n := n) sep f fs
  rw [hlist]
  exact fun hds => ht (h _ _ hds)

theorem Closes.ne_sep {sep : String} {ts : List Token} (h : Closes ds)
    (hsep : ∃ us, (Piece.words sep).tokens b = .mark ' ' :: us) :
    ds ≠ (Piece.words sep).tokens b ++ ts ++ es := by
  obtain ⟨us, hus⟩ := hsep
  rw [hus]
  intro hds
  cases h _ _ hds

mutual

/-- **The tokens of a form tell the form, and where it ends.** -/
theorem tokens_cancel : ∀ {f g : Form} {n : Nat} {ds es : List Token},
    f.tokens b n ++ ds = g.tokens b n ++ es → f = g ∧ ds = es
  | compare c op, _, _, _, _, h => tokens_verb_cancel (.compare op) c 0 h
  | isNull c negated, _, _, _, _, h => tokens_verb_cancel (.isNull negated) c 0 h
  | like c cast negated, _, _, _, _, h => tokens_verb_cancel (.like cast negated) c 0 h
  | inList c count negated, _, _, _, _, h => tokens_verb_cancel (.inList negated) c count h
  | between c, _, _, _, _, h => tokens_verb_cancel .between c 0 h
  | any fs, g, n, ds, es, h => by
      rcases g.group_or_verb with ⟨gs, rfl⟩ | ⟨v, c, count, rfl⟩
      · rw [tokens_any, tokens_any] at h
        have hclose : ∀ {ts}, Closes (.mark ')' :: ts) := fun _ _ h => (List.cons.inj h).1.symm
        have hsep : ∃ ts, (Piece.words " OR ").tokens b = .mark ' ' :: ts := ⟨_, rfl⟩
        obtain ⟨rfl, hrest⟩ := tokensList_cancel hsep hclose hclose (List.cons.inj h).2
        exact ⟨rfl, (List.cons.inj hrest).2⟩
      · exact absurd h.symm tokens_verb_ne_any
termination_by structural f => f

theorem tokensList_cancel {sep : String}
    (hsep : ∃ ts, (Piece.words sep).tokens b = .mark ' ' :: ts) :
    ∀ {fs gs : List Form} {n : Nat} {ds es : List Token}, Closes ds → Closes es →
      tokensList b sep n fs ++ ds = tokensList b sep n gs ++ es → fs = gs ∧ ds = es
  | [], [], _, _, _, _, _, h => ⟨rfl, h⟩
  | [], _ :: _, _, _, _, hds, _, h => absurd h hds.ne_tokensList
  | _ :: _, [], _, _, _, _, hes, h => absurd h.symm hes.ne_tokensList
  | [f], [g], _, _, _, _, _, h => by
      obtain ⟨rfl, hrest⟩ := tokens_cancel (f := f) (g := g) h
      exact ⟨rfl, hrest⟩
  | [f], g :: g' :: gs, _, _, _, hds, _, h => by
      rw [tokensList_cons_cons, List.append_assoc] at h
      obtain ⟨-, hrest⟩ := tokens_cancel (f := f) h
      exact absurd hrest (hds.ne_sep hsep)
  | f :: f' :: fs, [g], _, _, _, _, hes, h => by
      rw [tokensList_cons_cons, List.append_assoc] at h
      obtain ⟨-, hrest⟩ := tokens_cancel (g := g) h
      exact absurd hrest.symm (hes.ne_sep hsep)
  | f :: f' :: fs, g :: g' :: gs, _, _, _, hds, hes, h => by
      rw [tokensList_cons_cons, tokensList_cons_cons, List.append_assoc,
        List.append_assoc (g.tokens _ _)] at h
      obtain ⟨rfl, hrest⟩ := tokens_cancel h
      rw [List.append_assoc, List.append_assoc] at hrest
      obtain ⟨hfs, hend⟩ := tokensList_cancel hsep hds hes (List.append_cancel_left hrest)
      exact ⟨congrArg (f :: ·) hfs, hend⟩
termination_by structural fs => fs

end

theorem tokens_whereClause_cons (f : Form) (fs : List Form) :
    (whereClause n (f :: fs)).flatMap (Piece.tokens b) =
      marks " WHERE " ++ tokensList b " AND " n (f :: fs) := by
  rw [whereClause, List.flatMap_cons]
  rfl

/-- The text of a clause tells the forms of its conditions. -/
theorem eq_of_text_whereClause {fs gs : List Form}
    (h : Piece.text b (whereClause n fs) = Piece.text b (whereClause n gs)) : fs = gs := by
  have htokens := congrArg Sql.tokens h
  rw [Piece.tokens_text (spaced_whereClause n fs).tidy,
    Piece.tokens_text (spaced_whereClause n gs).tidy] at htokens
  cases fs with
  | nil =>
      cases gs with
      | nil => rfl
      | cons g gs =>
          rw [tokens_whereClause_cons] at htokens
          cases htokens
  | cons f fs =>
      cases gs with
      | nil =>
          rw [tokens_whereClause_cons] at htokens
          cases htokens
      | cons g gs =>
          rw [tokens_whereClause_cons, tokens_whereClause_cons] at htokens
          have hsep : ∃ ts, (Piece.words " AND ").tokens b = .mark ' ' :: ts := ⟨_, rfl⟩
          have hend : Closes [] := nofun
          have hlists := List.append_cancel_left htokens
          rw [← List.append_nil (tokensList b _ n (f :: fs)),
            ← List.append_nil (tokensList b _ n (g :: gs))] at hlists
          exact (tokensList_cancel hsep hend hend hlists).1

end Form

/-- **A clause is read in one way.**  Two clauses that come after equally many values have one text
exactly if their conditions are as many and have the same forms, one by one: the same columns by
name, signs, denials, casts and numbers of values, in the same groups. -/
theorem Predicate.text_whereClause_eq_iff (b : Backend) (n : Nat) (ps qs : List Predicate) :
    Piece.text b (whereClause n ps) = Piece.text b (whereClause n qs) ↔
      List.Forall₂ (fun p q => p.form = q.form) ps qs := by
  have hforms : forms ps = forms qs ↔ List.Forall₂ (fun p q => p.form = q.form) ps qs := by
    rw [forms_eq_map, forms_eq_map, ← List.forall₂_eq_eq_eq, List.forall₂_map_left_iff,
      List.forall₂_map_right_iff]
  rw [← hforms, whereClause_eq, whereClause_eq]
  constructor
  · exact Form.eq_of_text_whereClause
  · intro h
    rw [h]

end ResourceQuery
