import ResourceQuery.Proofs.Filter.Grammar
import ResourceQuery.Proofs.Filter.Value
import ResourceQuery.Proofs.Query.Compile
import ResourceQuery.Proofs.Schema.Table
import ResourceQuery.Proofs.Time.Reading
import ResourceQuery.Store.Cell

/-!
# Store — a cell asks for itself

What a row returns may be sent back in a filter on the same field.

* `Stored.read?_readAs`: which cells a column of a type is read as.
* `Cell.exists_sentBack`: the document of a cell is compiled to the comparison with the cell's
  value, and that of a null to the question for nulls (`Asks`).
* `filters_back`: so a filter made of a returned value is accepted, and asks for that value.
-/

namespace ResourceQuery

/-- The cells a column of a type is read as. -/
inductive Cell.ReadAs : ColumnType → Cell → Prop where
  | null {type : ColumnType} : ReadAs type .null
  | text {s : String} : ReadAs .text (.text s)
  | int {type : ColumnType} {n : Int} (h : type = .integer ∨ type = .real) : ReadAs type (.int n)
  | float {type : ColumnType} {d : Double} (h : type = .integer ∨ type = .real) :
      ReadAs type (.float d)
  | bool {b : Bool} : ReadAs .boolean (.bool b)
  | timestamp {t : Instant} (h : t.Proper) : ReadAs .timestamp (.timestamp t)
  /-- A text that writes no instant stays text. -/
  | fallback {s : String} : ReadAs .timestamp (.text s)

theorem Stored.read?_readAs {stored : Stored} {type : ColumnType} {cell : Cell}
    (h : stored.read? type = some cell) : cell.ReadAs type := by
  cases type with
  | text =>
      cases stored with
      | null => cases h; exact .null
      | text s | integer n | real d => cases h; exact .text
      | blob => cases h
  | integer | real =>
      cases stored with
      | null => cases h; exact .null
      | integer n => cases h; exact .int (by decide)
      | real d => cases h; exact .float (by decide)
      | text s | blob => cases h
  | boolean =>
      cases stored with
      | null => cases h; exact .null
      | integer n => cases h; exact .bool
      | text s | real d | blob => cases h
  | timestamp =>
      cases stored with
      | null => cases h; exact .null
      | integer n =>
          obtain ⟨t, ht, rfl⟩ := Option.map_eq_some_iff.mp h
          exact .timestamp (Instant.ofSeconds?_proper ht)
      | text s =>
          rw [read?, asTimestamp?] at h
          split at h
          · rename_i t ht
            cases h
            exact .timestamp (Time.ofCellText?_proper ht)
          · cases h
            exact .fallback
      | real d | blob => cases h

/-- The document of a cell keeps all of it: a text is no stand-in for an instant, an integer has 64
bits, a double is finite and the year of an instant has four digits. -/
def Cell.Kept (type : ColumnType) : Cell → Prop
  | null | bool _ => True
  | text _ => type ≠ .timestamp
  | int n => Text.fitsSigned n = true
  | float d => d.isFinite = true
  | timestamp t =>
      0 ≤ (Date.ofSeconds t.seconds).year ∧ (Date.ofSeconds t.seconds).year ≤ 9999

/-- The value of a cell; a null has none. -/
def Cell.value? : Cell → Option SqlValue
  | null => none
  | text s => some (.text s)
  | int n => some (.int n)
  | float d => some (.float d)
  | bool b => some (.bool b)
  | timestamp t => some (.timestamp t)

/-- The value may be bound for a column of the type. -/
def SqlValue.suits : SqlValue → ColumnType → Bool
  | text _, .text | bool _, .boolean | timestamp _, .timestamp => true
  | int _, .integer | int _, .real | float _, .integer | float _, .real => true
  | _, _ => false

/-- The predicate asks a column for the value of a cell, or for nulls if the cell is one. -/
inductive Asks (col : Column) : Cell → Predicate → Prop where
  | null : Asks col .null (.isNull col false)
  | value {cell : Cell} {v : SqlValue} (holds : cell.value? = some v)
      (suits : v.suits col.type = true) : Asks col cell (.compare col .eq v)

/-! ### From a cell to a predicate -/

theorem Value.ofJson_scalar {c : Comparison} {j : Json} {x : Scalar}
    (h : Scalar.ofJson j = .ok x) : Value.ofJson (.compare c) j = .ok (.scalar x) := by
  cases j with
  | str s => cases h; rfl
  | null | bool _ | int _ | double _ => cases h; rfl
  | arr _ | obj _ => cases h

theorem Condition.compare_of_bind? {col : Column} {c : Comparison} {x : Scalar} {v : SqlValue}
    (h : bind? col.type x = some v) : compare col c x = .ok (.compare col c v) := by
  have hbind : bind col.type x = .ok v := by rw [bind, h]
  cases x with
  | null =>
      rw [bind?.eq_def] at h
      cases hcol : col.type <;> rw [hcol] at h <;> cases h
  | str _ | int _ _ | float _ _ | bool _ _ => exact bind_eq_ok_iff.mpr ⟨v, hbind, rfl⟩

/-- A text column takes the text, whatever it was read as. -/
theorem Condition.bind?_ofText (s : String) : bind? .text (Scalar.ofText s) = some (.text s) := by
  rw [bind?.eq_def]
  dsimp only
  rw [Scalar.text?_ofText]
  rfl

/-- An instant is no number: its text starts with a year and a hyphen. -/
theorem Scalar.ofText_zuluText {t : Instant} (hyear : 0 ≤ (Date.ofSeconds t.seconds).year)
    (hyear' : (Date.ofSeconds t.seconds).year ≤ 9999) :
    ofText t.zuluText = .str t.zuluText := by
  have htext : t.zuluText.toList = Text.padded 4 (Time.shownParts t).year.toNat ++ '-' :: _ :=
    String.toList_ofList.trans (Time.bareChars_append hyear hyear' ['Z'])
  exact ofText_of_hyphen (Text.padded_ne_nil _ _) (Text.all_isDigit_padded _ _) htext

/-- The document of a cell is read as `x`, and equality with `x` is compiled to the question for the
cell. -/
structure Cell.SentBack (col : Column) (cell : Cell) (x : Scalar) (p : Predicate) : Prop where
  read : Scalar.ofJson cell.toJson = .ok x
  /-- A text that is read is the whole document. -/
  text : ∀ s, x = .str s → cell.toJson = .str s
  compiled : Condition.compare col .eq x = .ok p
  asks : Asks col cell p

/-- A value that is bound as the cell's is compared with. -/
theorem Cell.SentBack.ofBind {col : Column} {cell : Cell} {x : Scalar} {v : SqlValue}
    (read : Scalar.ofJson cell.toJson = .ok x) (text : ∀ s, x = .str s → cell.toJson = .str s)
    (holds : cell.value? = some v) (suits : v.suits col.type = true)
    (bound : Condition.bind? col.type x = some v) :
    SentBack col cell x (.compare col .eq v) where
  read := read
  text := text
  compiled := Condition.compare_of_bind? bound
  asks := .value holds suits

/-- **The document of a cell is compiled to the question for the cell.** -/
theorem Cell.exists_sentBack {col : Column} {cell : Cell} (read : cell.ReadAs col.type)
    (kept : cell.Kept col.type) : ∃ x p, SentBack col cell x p := by
  obtain ⟨name, type⟩ := col
  dsimp only at read kept
  cases read with
  | null => exact ⟨.null, _, rfl, nofun, rfl, .null⟩
  | text =>
      rename_i s
      have htext : ∀ s', Scalar.ofText s = .str s' → Json.str s = .str s' :=
        fun s' hs' => congrArg Json.str (Scalar.eq_of_ofText_eq_str hs')
      exact ⟨_, _, .ofBind rfl htext rfl rfl (Condition.bind?_ofText s)⟩
  | int h =>
      rename_i n
      have hfits : Text.fitsSigned n = true := kept
      have hx : Scalar.ofJson (.int n) = .ok (.int n (Json.intText n)) := by
        rw [Scalar.ofJson, if_pos hfits]
      rcases h with rfl | rfl
      · exact ⟨_, _, .ofBind hx nofun rfl rfl rfl⟩
      · exact ⟨_, _, .ofBind hx nofun rfl rfl rfl⟩
  | float h =>
      rename_i d
      have hdoc : (Cell.float d).toJson = .double d := if_pos kept
      have hx : Scalar.ofJson (Cell.float d).toJson = .ok (.float d (Style.json.text d)) := by
        rw [hdoc]
        rfl
      rcases h with rfl | rfl
      · exact ⟨_, _, .ofBind hx nofun rfl rfl rfl⟩
      · exact ⟨_, _, .ofBind hx nofun rfl rfl rfl⟩
  | bool => exact ⟨_, _, .ofBind rfl nofun rfl rfl rfl⟩
  | timestamp h =>
      rename_i t
      have hx : Scalar.ofJson (.str t.zuluText) = .ok (.str t.zuluText) :=
        congrArg Except.ok (Scalar.ofText_zuluText kept.1 kept.2)
      have htext : ∀ s, Scalar.str t.zuluText = .str s → Json.str t.zuluText = .str s :=
        fun s hs => congrArg Json.str (Scalar.str.inj hs)
      have hbind : Condition.bind? .timestamp (.str t.zuluText) = some (.timestamp t) := by
        show (Time.ofRequestText? t.zuluText).map SqlValue.timestamp = _
        rw [Time.ofRequestText?_zuluText h kept.1 kept.2]
        rfl
      exact ⟨_, _, .ofBind hx htext rfl rfl hbind⟩
  | fallback => exact absurd rfl kept

/-- **A value that a row returns filters back to itself.** -/
theorem filters_back {d : Declaration} {t : Table} {a : AllowList} {l : Limits} {field : String}
    {col : Column} {stored : Stored} {cell : Cell} (clock : Clock) (built : d.build = .ok t)
    (visible : Visible t a field col) (read : stored.read? col.type = some cell)
    (kept : cell.Kept col.type)
    (short : ∀ s, cell.toJson = .str s → s.length ≤ l.maxStringLength)
    (room : 1 ≤ l.maxFilterOperations) :
    ∃ c p, Filter.validate l (.obj [(field, .obj [("eq", cell.toJson)])]) = .ok [c] ∧
      c.compile clock t a = .ok (some p) ∧ Asks col cell p := by
  obtain ⟨x, p, hx, htext, hp, hasks⟩ := Cell.exists_sentBack (Stored.read?_readAs read) kept
  have hfield := Declaration.isIdentifier_of_column? built visible.2
  have hwithin : Filter.checkValue l (.compare .eq) (.scalar x) = .ok () := by
    cases x with
    | str s => exact if_neg (Nat.not_lt.mpr (short s (htext s rfl)))
    | null | int _ _ | float _ _ | bool _ _ => rfl
  refine ⟨⟨field, .compare .eq, .scalar x⟩, p, ?_, ?_, hasks⟩
  · refine Filter.validate_eq_ok_iff.mpr ⟨_, rfl, room, ?_, ?_⟩
    · intro m hm
      rw [List.mem_singleton.mp hm]
      exact ⟨hfield, _, rfl⟩
    · exact .cons ⟨rfl, rfl, Value.ofJson_scalar hx, hwithin⟩ .nil
  · exact Condition.compile_eq_ok_iff.mpr ⟨col, visible, map_eq_ok_iff.mpr ⟨p, hp, rfl⟩⟩

/-- What happened, and when. -/
def happenings : Declaration where
  name := "happenings"
  fields := [("at", ⟨"happened_at", .timestamp⟩)]

/-- Half a second into the leap second at the end of 2016. -/
def leapSecond : Instant :=
  ⟨1483228799, 1500000000⟩

theorem filters_back_leapSecond :
    (Stored.text "2016-12-31 18:59:60.5-05:00").read? .timestamp = some (.timestamp leapSecond) ∧
      ∃ t c p, happenings.build = .ok t ∧
        Filter.validate {} (.obj [("at", .obj [("eq", (Cell.timestamp leapSecond).toJson)])]) =
          .ok [c] ∧
        c.compile ⟨0, .utc⟩ t (.ofList ["at"]) = .ok (some p) ∧
        Asks ⟨"happened_at", .timestamp⟩ (.timestamp leapSecond) p := by
  have hread : (Stored.text "2016-12-31 18:59:60.5-05:00").read? .timestamp =
      some (.timestamp leapSecond) := by decide +kernel
  have hbuild : happenings.build = .ok ⟨"happenings", happenings.fields, none⟩ := rfl
  have hvisible : Visible ⟨"happenings", happenings.fields, none⟩ (.ofList ["at"]) "at"
      ⟨"happened_at", .timestamp⟩ := ⟨rfl, rfl⟩
  have hkept : (Cell.timestamp leapSecond).Kept .timestamp :=
    ⟨by decide +kernel, by decide +kernel⟩
  have hshort : ∀ s, (Cell.timestamp leapSecond).toJson = .str s → s.length ≤ 255 := by
    intro s hs
    cases hs
    decide +kernel
  obtain ⟨c, p, hvalidate, hcompile, hasks⟩ :=
    filters_back (l := {}) ⟨0, .utc⟩ hbuild hvisible hread hkept hshort (by decide)
  exact ⟨hread, _, c, p, hbuild, hvalidate, hcompile, hasks⟩

end ResourceQuery
