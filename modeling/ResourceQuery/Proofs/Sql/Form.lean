import ResourceQuery.Proofs.Sql.Piece
import ResourceQuery.Sql.Predicate

/-!
# Sql — Form

What is left of a condition when the values it binds are forgotten: the columns by name, the signs
between them, and how many values are bound where.

* `Predicate.pieces_eq`: the text of a condition is that of its form.  No bound value, and no type
  of a column beyond the question whether its text is called for, reaches the text.
* `Predicate.length_params`: a condition binds as many values as its form has places for.
* `Form.idents_pieces`: the names in the text of a form are those of its columns, in order.
* `Form.places_pieces`: its places are numbered in turn, one for each value it binds.
-/

namespace ResourceQuery

/-- A condition without the values it binds. -/
inductive Form where
  | compare (column : String) (op : Comparison)
  | isNull (column : String) (negated : Bool)
  /-- The column is taken as text, by a cast where it is no text column. -/
  | like (column : String) (cast negated : Bool)
  | inList (column : String) (count : Nat) (negated : Bool)
  | between (column : String)
  | any (fs : List Form)
  deriving Repr

namespace Form

mutual

/-- How many values a condition of a form binds. -/
def arity : Form → Nat
  | compare _ _ | like _ _ _ => 1
  | isNull _ _ => 0
  | inList _ count _ => count
  | between _ => 2
  | any fs => arities fs
termination_by structural f => f

/-- How many values conditions of some forms bind. -/
def arities : List Form → Nat
  | [] => 0
  | f :: fs => f.arity + arities fs
termination_by structural fs => fs

end

mutual

/-- The names of the columns of a form, in order. -/
def columns : Form → List String
  | compare c _ | isNull c _ | like c _ _ | inList c _ _ | between c => [c]
  | any fs => columnsList fs
termination_by structural f => f

/-- The names of the columns of some forms, in order. -/
def columnsList : List Form → List String
  | [] => []
  | f :: fs => f.columns ++ columnsList fs
termination_by structural fs => fs

end

mutual

/-- The text of a form after `n` bound values. -/
def pieces (n : Nat) : Form → List Piece
  | compare c op => [.name c, .words (" " ++ op.sign ++ " "), .hole (n + 1)]
  | isNull c negated => [.name c, .words (if negated then " IS NOT NULL" else " IS NULL")]
  | like c cast negated =>
      Piece.matching (if cast then .asText c else .name c) negated (n + 1)
  | inList c count negated =>
      .name c :: .words (if negated then " NOT IN (" else " IN (") ::
        Predicate.holes n count ++ [.words ")"]
  | between c => [.name c, .words " BETWEEN ", .hole (n + 1), .words " AND ", .hole (n + 2)]
  | any fs => .words "(" :: piecesList " OR " n fs ++ [.words ")"]
termination_by structural f => f

/-- The texts of some forms, `sep` between each two, after `n` bound values. -/
def piecesList (sep : String) (n : Nat) : List Form → List Piece
  | [] => []
  | [f] => f.pieces n
  | f :: fs => f.pieces n ++ .words sep :: piecesList sep (n + f.arity) fs
termination_by structural fs => fs

end

/-- The clause that conditions of some forms all hold, after `n` bound values. -/
def whereClause (n : Nat) : List Form → List Piece
  | [] => []
  | f :: fs => .words " WHERE " :: piecesList " AND " n (f :: fs)

end Form

namespace Predicate

mutual

/-- The form of a condition. -/
def form : Predicate → Form
  | compare c op _ => .compare c.name op
  | isNull c negated => .isNull c.name negated
  | like c _ negated => .like c.name (c.type != .text) negated
  | inList c vs negated => .inList c.name vs.length negated
  | between c _ _ => .between c.name
  | any ps => .any (forms ps)
termination_by structural p => p

/-- The forms of some conditions. -/
def forms : List Predicate → List Form
  | [] => []
  | p :: ps => p.form :: forms ps
termination_by structural ps => ps

end

theorem forms_eq_map : ∀ ps : List Predicate, forms ps = ps.map form
  | [] => rfl
  | p :: ps => by rw [forms, forms_eq_map ps, List.map_cons]

mutual

/-- A condition binds as many values as its form has places for. -/
theorem length_params : ∀ p : Predicate, p.params.length = p.form.arity
  | compare _ _ _ | isNull _ _ | like _ _ _ | inList _ _ _ | between _ _ _ => rfl
  | any ps => by rw [params, form, Form.arity, length_paramsList ps]
termination_by structural p => p

theorem length_paramsList : ∀ ps : List Predicate, (paramsList ps).length = Form.arities (forms ps)
  | [] => rfl
  | p :: ps => by
      rw [paramsList, forms, Form.arities, List.length_append, length_params p,
        length_paramsList ps]
termination_by structural ps => ps

end

/-- The text of a column is that of its form: a cast, or its name. -/
theorem textPiece_eq (c : Column) :
    textPiece c = if c.type != .text then .asText c.name else .name c.name := by
  rw [textPiece]
  by_cases h : c.type = .text <;> simp [h]

mutual

/-- **The text of a condition is that of its form.** -/
theorem pieces_eq (n : Nat) : ∀ p : Predicate, p.pieces n = p.form.pieces n
  | compare _ _ _ | isNull _ _ | inList _ _ _ | between _ _ _ => rfl
  | like c _ _ => by rw [pieces, form, Form.pieces, textPiece_eq]
  | any ps => by rw [pieces, form, Form.pieces, piecesList_eq " OR " n ps]
termination_by structural p => p

theorem piecesList_eq (sep : String) (n : Nat) :
    ∀ ps : List Predicate, piecesList sep n ps = Form.piecesList sep n (forms ps)
  | [] => rfl
  | [p] => pieces_eq n p
  | p :: q :: ps => by
      show p.pieces n ++ .words sep :: piecesList sep (n + p.params.length) (q :: ps) =
        p.form.pieces n ++ .words sep :: Form.piecesList sep (n + p.form.arity) (forms (q :: ps))
      rw [pieces_eq n p, length_params, piecesList_eq sep _ (q :: ps)]
termination_by structural ps => ps

end

theorem whereClause_eq (n : Nat) :
    ∀ ps : List Predicate, whereClause n ps = Form.whereClause n (forms ps)
  | [] => rfl
  | p :: ps => by rw [whereClause, piecesList_eq]; rfl

end Predicate

/-! ### The names in a text -/

theorem Predicate.idents_holes (n count : Nat) : Piece.idents (holes n count) = [] := by
  rw [holes, Piece.idents_joined, List.flatMap_map, List.flatMap_eq_nil_iff]
  intro i _
  rfl

theorem Predicate.places_holes (n count : Nat) :
    Piece.places (holes n count) = List.range' (n + 1) count := by
  rw [holes, Piece.places_joined, List.flatMap_map, List.range'_eq_map_range]
  show (List.range count).flatMap (fun i => [n + i + 1]) = _
  rw [← List.map_eq_flatMap]
  exact List.map_congr_left fun i _ => Nat.add_right_comm n i 1

namespace Form

mutual

/-- **The names in the text of a form are those of its columns.** -/
theorem idents_pieces (n : Nat) : ∀ f : Form, Piece.idents (f.pieces n) = f.columns
  | compare _ _ | isNull _ _ | between _ => rfl
  | like _ cast _ => by cases cast <;> rfl
  | inList c count negated => by
      show c :: Piece.idents (Predicate.holes n count ++ [.words ")"]) = [c]
      rw [Piece.idents_append, Predicate.idents_holes]
      rfl
  | any fs => by
      show Piece.idents (piecesList " OR " n fs ++ [.words ")"]) = columnsList fs
      rw [Piece.idents_append, idents_piecesList " OR " n fs]
      exact List.append_nil _
termination_by structural f => f

theorem idents_piecesList (sep : String) (n : Nat) :
    ∀ fs : List Form, Piece.idents (piecesList sep n fs) = columnsList fs
  | [] => rfl
  | [f] => by
      rw [columnsList, columnsList, List.append_nil]
      exact idents_pieces n f
  | f :: g :: fs => by
      show Piece.idents (f.pieces n ++ .words sep :: piecesList sep (n + f.arity) (g :: fs)) =
        f.columns ++ columnsList (g :: fs)
      rw [Piece.idents_append, idents_pieces n f, ← idents_piecesList sep (n + f.arity) (g :: fs)]
      rfl
termination_by structural fs => fs

end

theorem idents_whereClause (n : Nat) :
    ∀ fs : List Form, Piece.idents (whereClause n fs) = columnsList fs
  | [] => rfl
  | f :: fs => idents_piecesList " AND " n (f :: fs)

theorem columnsList_eq : ∀ fs : List Form, columnsList fs = fs.flatMap columns
  | [] => rfl
  | f :: fs => by rw [columnsList, columnsList_eq fs, List.flatMap_cons]

/-! ### The places in a text -/

mutual

/-- **A form leaves a place for each value it binds, and numbers them in turn.** -/
theorem places_pieces (n : Nat) :
    ∀ f : Form, Piece.places (f.pieces n) = List.range' (n + 1) f.arity
  | compare _ _ | isNull _ _ | between _ => rfl
  | like _ cast _ => by cases cast <;> rfl
  | inList c count negated => by
      show Piece.places (Predicate.holes n count ++ [.words ")"]) = List.range' (n + 1) count
      rw [Piece.places_append, Predicate.places_holes]
      exact List.append_nil _
  | any fs => by
      show Piece.places (piecesList " OR " n fs ++ [.words ")"]) = _
      rw [Piece.places_append, places_piecesList " OR " n fs]
      exact List.append_nil _
termination_by structural f => f

theorem places_piecesList (sep : String) (n : Nat) :
    ∀ fs : List Form, Piece.places (piecesList sep n fs) = List.range' (n + 1) (arities fs)
  | [] => rfl
  | [f] => places_pieces n f
  | f :: g :: fs => by
      show Piece.places (f.pieces n ++ .words sep :: piecesList sep (n + f.arity) (g :: fs)) =
        List.range' (n + 1) (f.arity + arities (g :: fs))
      have htail := places_piecesList sep (n + f.arity) (g :: fs)
      rw [Nat.add_right_comm] at htail
      rw [Piece.places_append, places_pieces n f, ← List.range'_append_1, ← htail]
      rfl
termination_by structural fs => fs

end

theorem places_whereClause (n : Nat) :
    ∀ fs : List Form, Piece.places (whereClause n fs) = List.range' (n + 1) (arities fs)
  | [] => rfl
  | f :: fs => places_piecesList " AND " n (f :: fs)

end Form

/-- A clause leaves a place for each value its conditions bind, and numbers them in turn. -/
theorem Predicate.places_whereClause (n : Nat) (ps : List Predicate) :
    Piece.places (whereClause n ps) = List.range' (n + 1) (paramsList ps).length := by
  rw [whereClause_eq, Form.places_whereClause, length_paramsList]

end ResourceQuery
