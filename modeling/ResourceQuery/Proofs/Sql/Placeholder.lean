import ResourceQuery.Proofs.Sql.Correspondence

/-!
# Sql — places and values

A clause is written in one go: whenever a value is called for it joins those bound so far, and its
place in the text has the number it then has (`Predicate.write`).

* `Predicate.run_write`: what is written so is the text of the condition, numbered from the values
  that were there before, and the values it adds are those the condition binds, in their order.
* `Corresponds.placeholders`: of two spellings that correspond, one has a question mark for each
  value and the other the numbers in turn.
* `places_aligned`: so the placeholders that a database finds in a clause are those of its values.
-/

namespace ResourceQuery

open Sql (Lexeme Corresponds lexemes)

/-! ### Writing in one go -/

namespace Predicate

/-- A place for a value, which joins those bound so far. -/
def place (v : SqlValue) : StateM (List SqlValue) Piece := do
  modify (· ++ [v])
  return .hole (← get).length

mutual

/-- The text of a condition, as it is written next to the values bound so far. -/
def write : Predicate → StateM (List SqlValue) (List Piece)
  | compare c op v => do
      let hole ← place v
      return [.name c.name, .words (" " ++ op.sign ++ " "), hole]
  | isNull c negated =>
      return [.name c.name, .words (if negated then " IS NOT NULL" else " IS NULL")]
  | like c pattern negated => do
      let hole ← place (.text pattern)
      return [textPiece c, .words " ", .likeness negated, .words " ", hole,
        .words " ESCAPE '\\'"]
  | inList c vs negated => do
      let holes ← vs.mapM place
      return .name c.name :: .words (if negated then " NOT IN (" else " IN (") ::
        Piece.joined ", " (holes.map fun hole => [hole]) ++ [.words ")"]
  | between c low high => do
      let low ← place low
      let high ← place high
      return [.name c.name, .words " BETWEEN ", low, .words " AND ", high]
  | any ps => do
      let parts ← writeAll ps
      return .words "(" :: Piece.joined " OR " parts ++ [.words ")"]
termination_by structural p => p

/-- The texts of some conditions, one written after the other. -/
def writeAll : List Predicate → StateM (List SqlValue) (List (List Piece))
  | [] => return []
  | p :: ps => do
      let part ← p.write
      let parts ← writeAll ps
      return part :: parts
termination_by structural ps => ps

end

/-- The clause that all of some conditions hold, as it is written. -/
def writeClause : List Predicate → StateM (List SqlValue) (List Piece)
  | [] => return []
  | p :: ps => do
      let parts ← writeAll (p :: ps)
      return .words " WHERE " :: Piece.joined " AND " parts

/-- The texts of some conditions, the first of them after `n` bound values. -/
def parts (n : Nat) : List Predicate → List (List Piece)
  | [] => []
  | p :: ps => p.pieces n :: parts (n + p.params.length) ps

theorem joined_parts (sep : String) : ∀ (n : Nat) (ps : List Predicate),
    Piece.joined sep (parts n ps) = piecesList sep n ps
  | _, [] | _, [_] => rfl
  | n, p :: q :: ps => by
      show p.pieces n ++ .words sep :: Piece.joined sep (parts (n + p.params.length) (q :: ps)) = _
      rw [joined_parts sep (n + p.params.length) (q :: ps)]
      rfl

/-- One step of writing, then the rest. -/
theorem run_bind {α β : Type} {x : StateM (List SqlValue) α} {f : α → StateM (List SqlValue) β}
    {bound bound' : List SqlValue} {a : α} (h : x.run bound = (a, bound')) :
    (x >>= f).run bound = (f a).run bound' := by
  show (f (x.run bound).1).run (x.run bound).2 = _
  rw [h]

theorem run_place (v : SqlValue) (bound : List SqlValue) :
    (place v).run bound = (.hole (bound.length + 1), bound ++ [v]) := by
  show (Piece.hole (bound ++ [v]).length, bound ++ [v]) = _
  rw [List.length_append]
  rfl

/-- The places of some values are numbered in turn. -/
theorem run_mapM_place : ∀ (vs : List SqlValue) (bound : List SqlValue),
    (vs.mapM place).run bound =
      ((List.range vs.length).map fun i => .hole (bound.length + i + 1), bound ++ vs)
  | [], bound => by
      rw [List.mapM_nil, List.append_nil]
      rfl
  | v :: vs, bound => by
      have hnumber : ∀ i, (bound ++ [v]).length + i + 1 = bound.length + (i + 1) + 1 := by
        intro i
        rw [List.length_append, List.length_singleton]
        omega
      have hrest := run_mapM_place vs (bound ++ [v])
      simp only [hnumber] at hrest
      rw [List.mapM_cons, run_bind (run_place v bound), run_bind hrest, List.length_cons,
        List.range_succ_eq_map, List.map_cons, List.map_map, List.append_assoc]
      rfl

mutual

/-- **A condition is written as its text, numbered from the values that were there before, and adds
the values it binds.** -/
theorem run_write : ∀ (p : Predicate) (bound : List SqlValue),
    p.write.run bound = (p.pieces bound.length, bound ++ p.params)
  | compare c op v, bound => by
      rw [write, run_bind (run_place v bound)]
      rfl
  | isNull c negated, bound => by
      rw [params, List.append_nil]
      rfl
  | like c pattern negated, bound => by
      rw [write, run_bind (run_place _ bound)]
      rfl
  | inList c vs negated, bound => by
      rw [write, run_bind (run_mapM_place vs bound), List.map_map]
      rfl
  | between c low high, bound => by
      rw [write, run_bind (run_place low bound), run_bind (run_place high _), List.length_append,
        List.append_assoc]
      rfl
  | any ps, bound => by
      rw [write, run_bind (run_writeAll ps bound), joined_parts]
      rfl
termination_by structural p => p

theorem run_writeAll : ∀ (ps : List Predicate) (bound : List SqlValue),
    (writeAll ps).run bound = (parts bound.length ps, bound ++ paramsList ps)
  | [], bound => by
      rw [paramsList, List.append_nil]
      rfl
  | p :: ps, bound => by
      rw [writeAll, run_bind (run_write p bound), run_bind (run_writeAll ps _), List.length_append,
        List.append_assoc]
      rfl
termination_by structural ps => ps

end

/-- **A clause is written as its text, and adds the values its conditions bind.** -/
theorem run_writeClause : ∀ (ps : List Predicate) (bound : List SqlValue),
    (writeClause ps).run bound = (whereClause bound.length ps, bound ++ paramsList ps)
  | [], bound => by
      rw [paramsList, List.append_nil]
      rfl
  | p :: ps, bound => by
      rw [writeClause, run_bind (run_writeAll (p :: ps) bound), joined_parts]
      rfl

end Predicate

/-! ### Reading the places back -/

/-- The place of the `k`-th bound value as a backend spells it. -/
def Backend.placeholder : Backend → Nat → String
  | .sqlite, _ => "?"
  | .postgres, k => "$" ++ toString k

namespace Sql

/-- The word that some lexemes start with, if they start with one. -/
def leadingWord : List Lexeme → String
  | .word s :: _ => s
  | _ => ""

/-- The placeholders among some lexemes, from left to right: each question mark, and each dollar
sign with the word behind it. -/
def placeholders : List Lexeme → List String
  | [] => []
  | .sign c :: ls =>
      if c = '?' then "?" :: placeholders ls
      else if c = '$' then ("$" ++ leadingWord ls) :: placeholders ls
      else placeholders ls
  | .word _ :: ls | .name _ :: ls | .literal _ :: ls | .unclosed _ :: ls => placeholders ls

/-- What backends write alike is no placeholder. -/
theorem placeholders_shared {l : Lexeme} (h : l.isShared = true) (ls : List Lexeme) :
    placeholders (l :: ls) = placeholders ls := by
  cases l with
  | sign c =>
      rw [Lexeme.isShared, Bool.not_eq_true', List.contains_eq_mem, decide_eq_false_iff_not] at h
      simp only [List.mem_cons, not_or] at h
      rw [placeholders, if_neg h.1, if_neg h.2.1]
  | word _ | name _ | literal _ | unclosed _ => rfl

/-- **Spellings that correspond have a placeholder for each value between their ends.** -/
theorem Corresponds.placeholders {n m : Nat} {ls ms : List Lexeme} (h : Corresponds n ls ms m) :
    ∃ count, m = n + count ∧
      Sql.placeholders ls = (List.range' (n + 1) count).map Backend.sqlite.placeholder ∧
      Sql.placeholders ms = (List.range' (n + 1) count).map Backend.postgres.placeholder := by
  induction h with
  | nil => exact ⟨0, rfl, rfl, rfl⟩
  | shared hl _ ih =>
      obtain ⟨count, hm, hls, hms⟩ := ih
      exact ⟨count, hm, by rw [placeholders_shared hl, hls], by rw [placeholders_shared hl, hms]⟩
  | place _ ih =>
      obtain ⟨count, hm, hls, hms⟩ := ih
      refine ⟨count + 1, by omega, ?_, ?_⟩
      · exact congrArg ("?" :: ·) hls
      · exact congrArg (_ :: ·) hms
  | like _ ih => exact ih
  | cast ident _ ih => exact ih

end Sql

/-- **Placeholders and values stay aligned.**  Whatever values were bound before, a clause is written
without touching them and adds those its conditions bind, from left to right; and the placeholders
outside the quotation marks of its text are theirs, one for each, numbered on from the values that
were there. -/
theorem places_aligned (b : Backend) (ps : List Predicate) (bound : List SqlValue) :
    (Predicate.writeClause ps).run bound =
        (Predicate.whereClause bound.length ps, bound ++ Predicate.paramsList ps) ∧
      Sql.placeholders
          (lexemes (Sql.tokens (Piece.text b (Predicate.whereClause bound.length ps)))) =
        (List.range' (bound.length + 1) (Predicate.paramsList ps).length).map b.placeholder := by
  refine ⟨Predicate.run_writeClause ps bound, ?_⟩
  have hspaced : Piece.Spaced (Predicate.whereClause bound.length ps) := by
    rw [Predicate.whereClause_eq]
    exact Form.spaced_whereClause bound.length _
  have hspelled := hspaced.corresponds (Predicate.places_whereClause bound.length ps)
  obtain ⟨count, hcount, hsqlite, hpostgres⟩ := hspelled.placeholders
  rw [Nat.add_left_cancel hcount]
  cases b with
  | sqlite => exact hsqlite
  | postgres => exact hpostgres

/-- A question mark in a name is no placeholder. -/
example : Sql.placeholders (lexemes (Sql.tokens (Piece.text .sqlite
    (Predicate.whereClause 2 [.between ⟨"sure?", .real⟩ (.int 1) (.int 2)])))) = ["?", "?"] := by
  decide

end ResourceQuery
