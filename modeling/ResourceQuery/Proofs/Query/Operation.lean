import ResourceQuery.Proofs.Filter.Reading
import ResourceQuery.Proofs.Query.Plan
import ResourceQuery.Proofs.Store.Cell
import ResourceQuery.Proofs.Text.Blank

/-!
# Query — what an operation of a filter comes to

An operation is read first, and compiled for a field then; `Operator.CompilesTo` takes both steps.

* `skips_iff_drops`: an operator skips the value of certain documents (`Drops`), and of no others.
* `compilesTo_outcome`: so an operation comes to nothing with these documents alone.
* `compilesTo_text`: a text column is asked for the text of the document, whatever that was read as;
  and an operator on one value takes the first of several.
-/

namespace ResourceQuery

namespace Operator

/-- The document is read for the operator, and the condition made of it comes to `r`. -/
def CompilesTo (op : Operator) (clock : Clock) (t : Table) (a : AllowList) (field : String)
    (j : Json) (r : Except QueryError (Option Predicate)) : Prop :=
  ∃ v, Value.ofJson op j = .ok v ∧ Condition.compile clock t a ⟨field, op, v⟩ = r

/-- The documents that an operator makes nothing of.  To an operator on one value it is the empty
array; to one on a set it is also null, and a text of commas and white space alone. -/
inductive Drops : Operator → Json → Prop where
  | compare (c : Comparison) : Drops (.compare c) (.arr [])
  | contains (negated : Bool) : Drops (.contains negated) (.arr [])
  | member (negated : Bool) : Drops (.member negated) (.arr [])
  | null (negated : Bool) : Drops (.member negated) .null
  | blank (negated : Bool) {s : String} (comma : ',' ∈ s.toList)
      (rest : ∀ c ∈ s.toList, c = ',' ∨ Text.isBlank c = true) : Drops (.member negated) (.str s)

variable {op : Operator} {j : Json} {v : Value}

/-! ### Documents that come to nothing -/

/-- An array comes to nothing if it is empty, and then its list of values is. -/
theorem skips_iff_drops_arr {js : List Json} {xs : List Scalar}
    (items : List.Forall₂ (fun j x => Scalar.ofJson j = .ok x) js xs) :
    op.skips (.list xs) = true ↔ op.Drops (.arr js) := by
  cases items with
  | nil =>
      cases op with
      | compare c => exact iff_of_true rfl (.compare c)
      | contains negated => exact iff_of_true rfl (.contains negated)
      | member negated => exact iff_of_true rfl (.member negated)
      | empty negated | between | relative => exact iff_of_false nofun nofun
  | cons => cases op <;> exact iff_of_false nofun nofun

/-- A text that is split comes to nothing if there is no item in it. -/
theorem skips_iff_drops_items {s : String} (splits : op.splits = true) (comma : ',' ∈ s.toList) :
    op.skips (.list (Value.ofItems s)) = true ↔ op.Drops (.str s) := by
  cases op with
  | member negated =>
      have hitems : Value.ofItems s = [] ↔ ∀ c ∈ s.toList, c = ',' ∨ Text.isBlank c = true := by
        rw [Value.ofItems, List.map_eq_nil_iff, Text.items_eq_nil_iff]
      cases hxs : Value.ofItems s with
      | nil => exact iff_of_true rfl (.blank negated comma (hitems.mp hxs))
      | cons x xs =>
          refine iff_of_false nofun fun h => ?_
          cases h with
          | blank _ _ rest =>
              rw [hitems.mpr rest] at hxs
              cases hxs
  | between => exact iff_of_false nofun nofun
  | compare c | contains negated | empty negated | relative => cases splits

/-- A single value comes to nothing if it is null and a set was asked for. -/
theorem skips_iff_drops_single {x : Scalar}
    (whole : ∀ s, j = .str s → op.splits = true → ',' ∉ s.toList) (h : Scalar.ofJson j = .ok x) :
    op.skips (.scalar x) = true ↔ op.Drops j := by
  constructor
  · intro hskips
    cases op with
    | member negated =>
        cases x with
        | null =>
            obtain rfl := Scalar.eq_null_of_ofJson h
            exact .null negated
        | str s | int n raw | float d raw | bool b raw => cases hskips
    | compare c | contains negated | empty negated | between | relative => cases hskips
  · intro hdrops
    cases hdrops with
    | compare c | contains negated | member negated => cases h
    | null negated =>
        cases h
        rfl
    | blank negated comma rest => exact absurd comma (whole _ rfl rfl)

/-- **An operator skips the values of the documents that it drops, and of no others.** -/
theorem skips_iff_drops (h : Value.ofJson op j = .ok v) : op.skips v = true ↔ op.Drops j := by
  cases Value.ofJson_eq_ok_iff.mp h with
  | array items => exact skips_iff_drops_arr items
  | split splits comma => exact skips_iff_drops_items splits comma
  | single whole hx => exact skips_iff_drops_single whole hx

end Operator

/-! ### Outcomes -/

section

variable {clock : Clock} {t : Table} {a : AllowList} {field : String} {col : Column}
variable {op : Operator} {j : Json} {v : Value} {r : Except QueryError (Option Predicate)}

namespace Condition

theorem compile_of_visible {c : Condition} (h : Visible t a c.field col) : c.compile clock t a =
    (predicate clock col c.operator c.value).mapError (.invalidValue c.field c.operator) := by
  rw [compile, resolve_eq_ok_iff.mpr h]

theorem predicate_eq_none_iff : predicate clock col op v = .ok none ↔ op.skips v = true := by
  constructor
  · intro h
    rw [← @Operator.form?_eq_none_iff col, ← predicate_form h]
    rfl
  · intro h
    cases op with
    | compare c | contains negated =>
        rcases v with x | _ | ⟨x, xs⟩
        · cases h
        · rfl
        · cases h
    | member negated =>
        rcases v with (_ | _ | _ | _ | _) | _ | ⟨x, xs⟩
        case scalar.null | list.nil => rfl
        all_goals cases h
    | empty negated | between | relative => cases h

end Condition

namespace Operator

/-- **An operation comes to nothing only if it asks for nothing.**  On a visible field it does so
exactly with the documents that its operator drops, and comes to a predicate or is refused for its
value with all others.  A field that is hidden or not declared is refused whatever is asked of it,
and the operators that drop no document never come to nothing. -/
theorem compilesTo_outcome (h : op.CompilesTo clock t a field j r) :
    (∀ col, Visible t a field col →
      (r = .ok none ↔ op.Drops j) ∧
      (¬ op.Drops j →
        (∃ p, r = .ok (some p)) ∨ ∃ fault, r = .error (.invalidValue field op fault))) ∧
    (a.contains field = false → r = .error (.fieldNotAllowed field)) ∧
    (a.contains field = true → t.column? field = none → r = .error (.fieldNotFound field)) ∧
    ((op = .between ∨ op = .relative ∨ ∃ negated, op = .empty negated) → r ≠ .ok none) := by
  obtain ⟨v, hv, rfl⟩ := h
  refine ⟨fun col visible => ?_, fun hidden => ?_, fun allowed undeclared => ?_,
    fun hop hnone => ?_⟩
  · have hdrops : Condition.predicate clock col op v = .ok none ↔ op.Drops j :=
      Condition.predicate_eq_none_iff.trans (skips_iff_drops hv)
    rw [Condition.compile_of_visible visible]
    refine ⟨mapError_eq_ok_iff.trans hdrops, fun hkept => ?_⟩
    cases hp : Condition.predicate clock col op v with
    | error fault => exact .inr ⟨fault, rfl⟩
    | ok made =>
        cases made with
        | none => exact absurd (hdrops.mp hp) hkept
        | some p => exact .inl ⟨p, rfl⟩
  · rw [Condition.compile, resolve, hidden]
    rfl
  · rw [Condition.compile, resolve, allowed, undeclared]
    rfl
  · have hskips := (Condition.compile_eq_none_iff hnone).mp rfl
    rcases hop with rfl | rfl | ⟨negated, rfl⟩ <;> cases hskips

/-- A text of commas and white space, given for a set of names, comes to nothing; given for a name
that callers may not touch, it is refused. -/
theorem compilesTo_outcome_blank :
    (member true).CompilesTo ⟨0, .utc⟩ people peopleAllowed "name" (.str ", \u3000,") (.ok none) ∧
      (member true).CompilesTo ⟨0, .utc⟩ people peopleAllowed "ssn" (.str ", \u3000,")
        (.error (.fieldNotAllowed "ssn")) := by
  have hread : Value.ofJson (member true) (.str ", \u3000,") = .ok (.list []) := by decide
  have hblank : (", \u3000,".toList.all fun c => c == ',' || Text.isBlank c) = true := by decide
  have hdrops : (member true).Drops (.str ", \u3000,") := by
    refine .blank true (by decide) fun c hc => ?_
    have hc' := List.all_eq_true.mp hblank c hc
    rwa [Bool.or_eq_true, beq_iff_eq] at hc'
  have hname : (member true).CompilesTo ⟨0, .utc⟩ people peopleAllowed "name" _ _ :=
    ⟨_, hread, rfl⟩
  have hssn : (member true).CompilesTo ⟨0, .utc⟩ people peopleAllowed "ssn" _ _ := ⟨_, hread, rfl⟩
  refine ⟨⟨_, hread, ?_⟩, ⟨_, hread, ?_⟩⟩
  · exact ((compilesTo_outcome hname).1 _ ⟨rfl, rfl⟩).1.mpr hdrops
  · exact (compilesTo_outcome hssn).2.1 rfl

end Operator

/-! ### Texts -/

/-- An operator on one value takes a text for what it is, commas and all. -/
theorem Value.ofJson_str_of_one (harity : op.arity = .one) (s : String) :
    ofJson op (.str s) = .ok (.scalar (Scalar.ofText s)) := by
  refine ofJson_str fun splits => ?_
  rw [Operator.splits, harity] at splits
  cases splits

namespace Condition

/-- An operator on one value sees the first value alone. -/
theorem predicate_of_first? {w : Value} (harity : op.arity = .one) (h : v.first? = w.first?) :
    predicate clock col op v = predicate clock col op w := by
  cases op with
  | compare c | contains negated => rw [predicate, predicate, h]
  | relative => rw [predicate, predicate, relative, relative, h]
  | member negated | empty negated | between => cases harity

theorem predicate_compare_ofText (htext : col.type = .text) (c : Comparison) (s : String) :
    predicate clock col (.compare c) (.scalar (Scalar.ofText s)) =
      .ok (some (.compare col c (.text s))) := by
  have hbind : bind? col.type (Scalar.ofText s) = some (.text s) := by
    rw [htext, bind?_ofText]
  exact map_eq_ok_iff.mpr ⟨_, compare_of_bind? hbind, rfl⟩

theorem predicate_contains_ofText (negated : Bool) (s : String) :
    predicate clock col (.contains negated) (.scalar (Scalar.ofText s)) =
      .ok (some (.like col (Text.containsPattern s) negated)) := by
  have hcontains : contains col negated (Scalar.ofText s) =
      .ok (.like col (Text.containsPattern s) negated) := by
    rw [contains, Scalar.text?_ofText]
  exact map_eq_ok_iff.mpr ⟨_, hcontains, rfl⟩

theorem bindElement_ofText (s : String) :
    bindElement .text (Scalar.ofText s) = .ok (.text s) := by
  have hbind : bind .text (Scalar.ofText s) = .ok (.text s) := by
    rw [bind, bind?_ofText]
  cases hx : Scalar.ofText s with
  | null => exact absurd hx (Scalar.ofText_ne_null s)
  | str _ | int _ _ | float _ _ | bool _ _ =>
      rw [hx] at hbind
      exact hbind

theorem predicate_member_ofText (htext : col.type = .text) (negated : Bool) (s : String)
    (ss : List String) :
    predicate clock col (.member negated) (.list ((s :: ss).map Scalar.ofText)) =
      .ok (some (.inList col ((s :: ss).map .text) negated)) := by
  have helements : ((s :: ss).map Scalar.ofText).mapM (bindElement col.type) =
      .ok ((s :: ss).map .text) := by
    rw [htext, mapM_eq_ok_iff, List.forall₂_map_left_iff, List.forall₂_map_right_iff]
    exact List.forall₂_same.mpr fun s _ => bindElement_ofText s
  exact map_eq_ok_iff.mpr ⟨_, bind_eq_ok_iff.mpr ⟨_, helements, rfl⟩, rfl⟩

end Condition

namespace Operator

/-- What a document comes to is what its value does, once it is read. -/
theorem compilesTo_iff (visible : Visible t a field col) (h : Value.ofJson op j = .ok v) :
    op.CompilesTo clock t a field j r ↔
      r = (Condition.predicate clock col op v).mapError (.invalidValue field op) := by
  constructor
  · rintro ⟨v', hv', rfl⟩
    rw [hv'] at h
    cases h
    exact Condition.compile_of_visible visible
  · rintro rfl
    exact ⟨v, h, Condition.compile_of_visible visible⟩

/-- **A text column is asked for the text as it was sent.**  Whatever the text looks like, a
comparison binds all of it, and a set of texts binds them one by one and in order; a search in any
column is for the pattern of the text.  An operator on one value takes the first of several. -/
theorem compilesTo_text (visible : Visible t a field col) :
    (col.type = .text → ∀ (c : Comparison) (s : String),
      (compare c).CompilesTo clock t a field (.str s) r ↔
        r = .ok (some (.compare col c (.text s)))) ∧
    (∀ (negated : Bool) (s : String), (contains negated).CompilesTo clock t a field (.str s) r ↔
      r = .ok (some (.like col (Text.containsPattern s) negated))) ∧
    (col.type = .text → ∀ (negated : Bool) (s : String) (ss : List String),
      (member negated).CompilesTo clock t a field (.arr ((s :: ss).map .str)) r ↔
        r = .ok (some (.inList col ((s :: ss).map .text) negated))) ∧
    (∀ (op : Operator) (s : String) (ss : List String), op.arity = .one →
      (op.CompilesTo clock t a field (.arr ((s :: ss).map .str)) r ↔
        op.CompilesTo clock t a field (.str s) r)) := by
  refine ⟨fun htext c s => ?_, fun negated s => ?_, fun htext negated s ss => ?_,
    fun op s ss harity => ?_⟩
  · rw [compilesTo_iff visible (Value.ofJson_str_of_one rfl s),
      Condition.predicate_compare_ofText htext]
    rfl
  · rw [compilesTo_iff visible (Value.ofJson_str_of_one rfl s),
      Condition.predicate_contains_ofText]
    rfl
  · rw [compilesTo_iff visible (Value.ofJson_texts _ _),
      Condition.predicate_member_ofText htext]
    rfl
  · have hfirst : (Value.list ((s :: ss).map Scalar.ofText)).first? =
        (Value.scalar (Scalar.ofText s)).first? := rfl
    rw [compilesTo_iff visible (Value.ofJson_texts _ _),
      compilesTo_iff visible (Value.ofJson_str_of_one harity s),
      Condition.predicate_of_first? harity hfirst]

/-- Names that look like numbers or booleans stay as they were sent, and so does one sent twice. -/
theorem compilesTo_text_zeros :
    Visible people peopleAllowed "name" ⟨"full_name", .text⟩ ∧
      (compare .gte).CompilesTo ⟨0, .utc⟩ people peopleAllowed "name" (.str "007")
        (.ok (some (.compare ⟨"full_name", .text⟩ .gte (.text "007")))) ∧
      (member true).CompilesTo ⟨0, .utc⟩ people peopleAllowed "name"
        (.arr [.str "TRUE", .str "-0", .str "-0"])
        (.ok (some
          (.inList ⟨"full_name", .text⟩ [.text "TRUE", .text "-0", .text "-0"] true))) := by
  have visible : Visible people peopleAllowed "name" ⟨"full_name", .text⟩ := ⟨rfl, rfl⟩
  exact ⟨visible, ((compilesTo_text visible).1 rfl .gte "007").mpr rfl,
    ((compilesTo_text visible).2.2.1 rfl true "TRUE" ["-0", "-0"]).mpr rfl⟩

end Operator

end

end ResourceQuery
