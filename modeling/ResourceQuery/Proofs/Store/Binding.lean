import ResourceQuery.Proofs.Store.Cell

/-!
# Store — a bound value comes back

What is bound for a column, stored, and read at the column's type is the value that was bound.

* `Stored.read?_eq_findSome?`: a cell is read by the first of the decodings of its column's type
  that accepts its storage class, so that a decoding put earlier could hide a later one.
* `Stored.exists_read?_ofValue`: no decoding does hide another, for a value that suits the type.
* `bound_read_back`: so what is bound for a column is shown as it was bound (`SqlValue.Shown`), and
  no other value of the column is shown like it.
-/

namespace ResourceQuery

/-! ### Decodings -/

/-- The text a number is written as. -/
def Cell.written : Cell → Cell
  | int n => text (toString n)
  | float d => text (Style.plain.text d)
  | cell => cell

namespace Stored

/-- As a text. -/
def string? : Stored → Option Cell
  | null => some .null
  | text s => some (.text s)
  | _ => none

/-- As an integer. -/
def integer? : Stored → Option Cell
  | null => some .null
  | integer n => some (.int n)
  | _ => none

/-- As a double. -/
def double? : Stored → Option Cell
  | null => some .null
  | real d => some (.float d)
  | _ => none

/-- As a boolean, which is stored as an integer. -/
def truth? : Stored → Option Cell
  | null => some .null
  | integer n => some (.bool (n != 0))
  | _ => none

/-- As an instant, which is stored as a text or as seconds since 1970. -/
def instant? : Stored → Option Cell
  | null => some .null
  | text s => (Time.ofCellText? s).map .timestamp
  | integer n => (Instant.ofSeconds? n).map .timestamp
  | _ => none

/-- The decodings of a column's type, in the order they are tried. -/
def decodings : ColumnType → List (Stored → Option Cell)
  | .text =>
      [string?, fun v => v.integer?.map Cell.written, fun v => v.double?.map Cell.written]
  | .integer => [integer?, double?]
  | .real => [double?, integer?]
  | .boolean => [truth?]
  | .timestamp => [instant?, string?]

/-- **A cell is read by the first decoding that accepts it.** -/
theorem read?_eq_findSome? (v : Stored) (type : ColumnType) :
    v.read? type = (decodings type).findSome? fun decode => decode v := by
  cases type with
  | text | integer | real | boolean => cases v <;> rfl
  | timestamp =>
      cases v with
      | null | real d | blob => rfl
      | integer n =>
          simp only [read?, asTimestamp?, decodings, instant?, string?, List.findSome?]
          cases Instant.ofSeconds? n <;> rfl
      | text s =>
          simp only [read?, asTimestamp?, decodings, instant?, string?, List.findSome?]
          cases Time.ofCellText? s <;> rfl

end Stored

/-! ### Values -/

/-- The document shows the value: the same text, integer, double or boolean, or an RFC 3339 text in
universal time that writes the same instant. -/
inductive SqlValue.Shown : SqlValue → Json → Prop where
  | text {s : String} : Shown (.text s) (.str s)
  | int {n : Int} : Shown (.int n) (.int n)
  | float {d : Double} : Shown (.float d) (.double d)
  | bool {b : Bool} : Shown (.bool b) (.bool b)
  | timestamp {t : Instant} {s : String} {front : List Char} (zulu : s.toList = front ++ ['Z'])
      (writes : Time.rfc3339? s.toList = some t) : Shown (.timestamp t) (.str s)

/-- Among the values of one column, a document shows one. -/
theorem SqlValue.Shown.unique {type : ColumnType} {v w : SqlValue} {j : Json} (hv : v.Shown j)
    (hw : w.Shown j) (hv' : v.suits type = true) (hw' : w.suits type = true) : w = v := by
  cases hv with
  | int | float | bool => cases hw; rfl
  | text =>
      cases hw with
      | text => rfl
      | timestamp => cases type <;> simp [suits] at hv' hw'
  | timestamp _ writes =>
      cases hw with
      | text => cases type <;> simp [suits] at hv' hw'
      | timestamp _ writes' =>
          rw [writes] at writes'
          rw [Option.some.inj writes']

/-- A value that is kept when it is stored: a double is finite, and an instant one that RFC 3339 can
write. -/
def SqlValue.Kept : SqlValue → Prop
  | text _ | int _ | bool _ => True
  | float d => d.isFinite = true
  | timestamp t => t.Writable

/-- A finite double is a number. -/
theorem Double.isNaN_of_isFinite {d : Double} (h : d.isFinite = true) : d.isNaN = false := by
  simp only [isFinite, decide_eq_true_eq] at h
  simp only [isNaN, decide_eq_false_iff_not]
  omega

/-- **A value that suits a column is stored, read and shown as it is.** -/
theorem Stored.exists_read?_ofValue {type : ColumnType} {v : SqlValue} (suits : v.suits type = true)
    (kept : v.Kept) : ∃ cell, (ofValue v).read? type = some cell ∧ v.Shown cell.toJson := by
  rw [read?_eq_findSome?]
  cases v with
  | text s =>
      cases type with
      | text => exact ⟨.text s, rfl, .text⟩
      | integer | real | boolean | timestamp => cases suits
  | int n =>
      -- a real column tries a double first, and that refuses an integer
      cases type with
      | integer | real => exact ⟨.int n, rfl, .int⟩
      | text | boolean | timestamp => cases suits
  | float d =>
      have hstored : ofValue (.float d) = .real d := by
        simp [ofValue, Double.isNaN_of_isFinite kept]
      have hshown : (SqlValue.float d).Shown (Cell.float d).toJson := by
        have hdoc : (Cell.float d).toJson = .double d := if_pos kept
        rw [hdoc]
        exact .float
      rw [hstored]
      cases type with
      | integer | real => exact ⟨.float d, rfl, hshown⟩
      | text | boolean | timestamp => cases suits
  | bool b =>
      cases type with
      | boolean =>
          refine ⟨.bool b, ?_, .bool⟩
          cases b <;> rfl
      | text | integer | real | timestamp => cases suits
  | timestamp t =>
      cases type with
      | timestamp =>
          refine ⟨.timestamp t, ?_,
            .timestamp String.toList_ofList (Time.rfc3339?_zuluText kept)⟩
          simp [decodings, ofValue, instant?, Time.ofCellText?_text kept]
      | text | integer | real | boolean => cases suits

/-! ### What may be bound -/

/-- A value that is bound for a column: that of a condition, or an end of a range of time. -/
inductive SqlValue.BoundFor (type : ColumnType) : SqlValue → Prop where
  | value {x : Scalar} {v : SqlValue} (h : Condition.bind type x = .ok v) : BoundFor type v
  | instant {t : Instant} {v : SqlValue} (proper : t.Proper)
      (h : Condition.bindInstant type t = .ok v) : BoundFor type v

/-- An instant among the values is one that a clock can show. -/
def SqlValue.Proper : SqlValue → Prop
  | text _ | int _ | float _ | bool _ => True
  | timestamp t => t.Proper

theorem Condition.bind_ok_iff {type : ColumnType} {x : Scalar} {v : SqlValue} :
    bind type x = .ok v ↔ bind? type x = some v := by
  rw [bind]
  cases bind? type x with
  | none => simp
  | some w => simp

/-- What a condition binds for a column suits it. -/
theorem Condition.bind?_suits {type : ColumnType} {x : Scalar} {v : SqlValue}
    (h : bind? type x = some v) : v.suits type = true ∧ v.Proper := by
  rw [bind?.eq_def] at h
  cases type with
  | text =>
      obtain ⟨s, -, rfl⟩ := Option.map_eq_some_iff.mp h
      exact ⟨rfl, trivial⟩
  | integer | real =>
      cases x with
      | int n raw | float d raw => cases h; exact ⟨rfl, trivial⟩
      | null | str s | bool b raw => cases h
  | boolean =>
      cases x with
      | bool b raw => cases h; exact ⟨rfl, trivial⟩
      | int n raw =>
          dsimp only at h
          split at h
          · cases h; exact ⟨rfl, trivial⟩
          · split at h
            · cases h; exact ⟨rfl, trivial⟩
            · cases h
      | null | str s | float d raw => cases h
  | timestamp =>
      cases x with
      | str s =>
          obtain ⟨t, ht, rfl⟩ := Option.map_eq_some_iff.mp h
          exact ⟨rfl, Time.ofRequestText?_proper ht⟩
      | int n raw =>
          obtain ⟨t, ht, rfl⟩ := Option.map_eq_some_iff.mp h
          exact ⟨rfl, Instant.ofSeconds?_proper ht⟩
      | null | float d raw | bool b raw => cases h

/-- So do the ends of a range of time. -/
theorem Condition.bindInstant_suits {type : ColumnType} {t : Instant} {v : SqlValue}
    (h : bindInstant type t = .ok v) : v.suits type = true := by
  cases type with
  | text | integer | real | timestamp => cases h; rfl
  | boolean => cases h

theorem Condition.bindInstant_proper {type : ColumnType} {t : Instant} {v : SqlValue}
    (proper : t.Proper) (h : bindInstant type t = .ok v) : v.Proper := by
  cases type with
  | text | integer | real => cases h; trivial
  | timestamp => cases h; exact proper
  | boolean => cases h

theorem SqlValue.BoundFor.suits {type : ColumnType} {v : SqlValue} (h : v.BoundFor type) :
    v.suits type = true ∧ v.Proper := by
  cases h with
  | value h => exact Condition.bind?_suits (Condition.bind_ok_iff.mp h)
  | instant proper h =>
      exact ⟨Condition.bindInstant_suits h, Condition.bindInstant_proper proper h⟩

/-- **What is bound for a column comes back as it was bound.** -/
theorem bound_read_back {type : ColumnType} {v : SqlValue} (bound : v.BoundFor type)
    (finite : ∀ d, v = .float d → d.isFinite = true)
    (dated : ∀ t, v = .timestamp t →
      0 ≤ (Date.ofSeconds t.seconds).year ∧ (Date.ofSeconds t.seconds).year ≤ 9999) :
    ∃ cell, (Stored.ofValue v).read? type = some cell ∧ v.Shown cell.toJson ∧
      ∀ w, w.BoundFor type → w.Shown cell.toJson → w = v := by
  obtain ⟨suits, proper⟩ := bound.suits
  have kept : v.Kept := by
    cases v with
    | text _ | int _ | bool _ => trivial
    | float d => exact finite d rfl
    | timestamp t => exact ⟨proper, (dated t rfl).1, (dated t rfl).2⟩
  obtain ⟨cell, hread, hshown⟩ := Stored.exists_read?_ofValue suits kept
  exact ⟨cell, hread, hshown, fun w hw hw' => hshown.unique hw' suits hw.suits.1⟩

/-- Half a second into the last leap second as a client east of it writes it, for a column of
instants; an integer for a column of doubles, and a double for a column of integers. -/
theorem bound_read_back_leapSecond :
    Condition.bind .timestamp (.str "2017-01-01T08:59:60.5+09:00") = .ok (.timestamp leapSecond) ∧
      (∃ cell, (Stored.text "2016-12-31T23:59:60.500+00:00").read? .timestamp = some cell ∧
        (SqlValue.timestamp leapSecond).Shown cell.toJson) ∧
      (∃ cell, (Stored.integer 7).read? .real = some cell ∧
        (SqlValue.int 7).Shown cell.toJson) ∧
      ∃ cell, (Stored.real (.ofInt 7)).read? .integer = some cell ∧
        (SqlValue.float (.ofInt 7)).Shown cell.toJson := by
  have hbind : Condition.bind .timestamp (.str "2017-01-01T08:59:60.5+09:00") =
      .ok (.timestamp leapSecond) := by decide +kernel
  have hinstant : (SqlValue.timestamp leapSecond).BoundFor .timestamp := .value hbind
  have hint : (SqlValue.int 7).BoundFor .real := .value (x := .int 7 "7") rfl
  have hfloat : (SqlValue.float (.ofInt 7)).BoundFor .integer :=
    .value (x := .float (.ofInt 7) "7.0") rfl
  have hstored : Stored.ofValue (.timestamp leapSecond) =
      .text "2016-12-31T23:59:60.500+00:00" := by decide +kernel
  have hdouble : Stored.ofValue (.float (.ofInt 7)) = .real (.ofInt 7) := by decide +kernel
  have hyear : 0 ≤ (Date.ofSeconds leapSecond.seconds).year ∧
      (Date.ofSeconds leapSecond.seconds).year ≤ 9999 := by decide +kernel
  obtain ⟨c₁, hread₁, hshown₁, -⟩ := bound_read_back hinstant nofun
    (by rintro _ ⟨⟩; exact hyear)
  obtain ⟨c₂, hread₂, hshown₂, -⟩ := bound_read_back hint nofun nofun
  obtain ⟨c₃, hread₃, hshown₃, -⟩ := bound_read_back hfloat
    (by rintro _ ⟨⟩; decide +kernel) nofun
  rw [hstored] at hread₁
  rw [hdouble] at hread₃
  exact ⟨hbind, ⟨c₁, hread₁, hshown₁⟩, ⟨c₂, hread₂, hshown₂⟩, c₃, hread₃, hshown₃⟩

end ResourceQuery
