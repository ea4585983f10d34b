import ResourceQuery.Sql.Piece

/-!
# Sql — the text of pieces

How a text is put together: `text_joined` and the lemmas before it take the text of some pieces
apart, piece by piece.  `idents` are the names that pieces write, in order, and `places` the numbers
of the bound values they leave a place for.
-/

namespace ResourceQuery.Piece

/-! ### Spelling

These hold by computation.  They spare unfolding `chars`, which is costly for its literals. -/

theorem chars_words (b : Backend) (s : String) : (words s).chars b = s.toList :=
  rfl

theorem chars_window (b : Backend) (limit offset : Nat) :
    (window limit offset).chars b =
      ("LIMIT " ++ toString limit ++ " OFFSET " ++ toString offset).toList :=
  rfl

theorem chars_asText_sqlite (ident : String) :
    (asText ident).chars .sqlite = "CAST(".toList ++ quotedName ident ++ " AS TEXT)".toList :=
  rfl

theorem chars_asText_postgres (ident : String) :
    (asText ident).chars .postgres = quotedName ident ++ "::TEXT".toList :=
  rfl

/-! ### Texts -/

/-- A name between its quotes. -/
def quoted (ident : String) : String :=
  String.ofList (quotedName ident)

theorem text_cons (b : Backend) (p : Piece) (ps : List Piece) :
    text b (p :: ps) = String.ofList (p.chars b) ++ text b ps := by
  rw [text, List.flatMap_cons, String.ofList_append]
  rfl

@[simp]
theorem text_words_cons (b : Backend) (s : String) (ps : List Piece) :
    text b (words s :: ps) = s ++ text b ps := by
  rw [text_cons, chars_words, String.ofList_toList]

@[simp]
theorem text_name_cons (b : Backend) (ident : String) (ps : List Piece) :
    text b (name ident :: ps) = quoted ident ++ text b ps :=
  text_cons b (name ident) ps

@[simp]
theorem text_nil (b : Backend) : text b [] = "" :=
  rfl

theorem text_joined (b : Backend) (sep : String) :
    ∀ parts : List (List Piece), text b (joined sep parts) = sep.intercalate (parts.map (text b))
  | [] => rfl
  | [part] => by rw [joined, List.map_singleton, String.intercalate_singleton]
  | part :: next :: parts => by
      show text b (part ++ words sep :: joined sep (next :: parts)) = _
      rw [text_append, text_words_cons, text_joined b sep (next :: parts), List.map_cons,
        List.map_cons, List.map_cons, String.intercalate_cons_cons, String.append_assoc]

/-- What is found in the pieces but not in the words between them. -/
theorem filterMap_joined {α : Type} {f : Piece → Option α} {sep : String}
    (hsep : f (words sep) = none) : ∀ parts : List (List Piece),
    (joined sep parts).filterMap f = parts.flatMap (List.filterMap f)
  | [] => rfl
  | [part] => (List.append_nil _).symm
  | part :: next :: parts => by
      show (part ++ words sep :: joined sep (next :: parts)).filterMap f = _
      rw [List.filterMap_append, List.flatMap_cons, List.filterMap_cons_none hsep,
        filterMap_joined hsep (next :: parts)]

/-! ### Names -/

/-- The name in a piece. -/
def ident? : Piece → Option String
  | name ident | asText ident => some ident
  | words _ | hole _ | likeness _ | window _ _ => none

/-- The names in some pieces, in order. -/
def idents (ps : List Piece) : List String :=
  ps.filterMap ident?

theorem idents_append (ps qs : List Piece) : idents (ps ++ qs) = idents ps ++ idents qs :=
  List.filterMap_append

theorem idents_joined (sep : String) (parts : List (List Piece)) :
    idents (joined sep parts) = parts.flatMap idents :=
  filterMap_joined rfl parts

/-! ### Places -/

/-- The number of the bound value whose place the piece is. -/
def place? : Piece → Option Nat
  | hole k => some k
  | words _ | name _ | asText _ | likeness _ | window _ _ => none

/-- The numbers of the bound values whose places some pieces are, in order. -/
def places (ps : List Piece) : List Nat :=
  ps.filterMap place?

theorem places_append (ps qs : List Piece) : places (ps ++ qs) = places ps ++ places qs :=
  List.filterMap_append

theorem places_joined (sep : String) (parts : List (List Piece)) :
    places (joined sep parts) = parts.flatMap places :=
  filterMap_joined rfl parts

end ResourceQuery.Piece
