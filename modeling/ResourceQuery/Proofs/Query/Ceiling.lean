import ResourceQuery.Proofs.Filter.Outcome
import ResourceQuery.Proofs.Filter.Stringified
import ResourceQuery.Proofs.Query.Plan
import ResourceQuery.Proofs.Query.Typing

/-!
# Query — the ceiling on texts

The ceiling on the length of a text is a limit on values.  A text column is sent what a value was
read from, and that is a text also where the value is a boolean or a number, which no ceiling is set
on.

* `Scalar.sends_of_ofJson`: what a value within the limits may be sent as (`Scalar.Sends`).
* `predicate_compare_or_member`, `predicate_contains`: a comparison and a set bind values of their
  condition, and a search is for the text of one.
* `texts_under_ceiling`: so what is sent as text is under the ceiling, unless it is a word for a
  boolean or writes a number.
-/

namespace ResourceQuery

variable {l : Limits} {op : Operator} {j : Json} {v : Value} {x : Scalar}

/-- The texts that a value within the limits is sent as: one that was read as a text is under the
ceiling, and all others are words for a boolean or numbers. -/
inductive Scalar.Sends (l : Limits) : Scalar → String → Prop where
  | text {s : String} (short : s.length ≤ l.maxStringLength) : Sends l (.str s) s
  | word {b : Bool} {s : String} (word : s.toList.map Text.lowerAscii = (toString b).toList) :
      Sends l (.bool b s) s
  | numeral {x : Scalar} {s : String} {negative : Bool} {c k : Nat} (number : x.isNumeric = true)
      (kept : x.text? = some s) (numeral : Numeral s.toList negative c k) : Sends l x s
  /-- A double of the document, as documents write it. -/
  | double (d : Double) : Sends l (.float d (Style.json.text d)) (Style.json.text d)

/-- What is kept of a document within the limits may be sent. -/
theorem Scalar.sends_of_ofJson {s : String} (h : ofJson j = .ok x)
    (short : ∀ s, x = .str s → s.length ≤ l.maxStringLength) (kept : x.text? = some s) :
    x.Sends l s := by
  cases j with
  | null =>
      cases h
      cases kept
  | bool b =>
      cases h
      cases kept
      refine .word ?_
      cases b <;> decide
  | int n =>
      rw [ofJson] at h
      split at h
      · cases h
        cases kept
        exact .numeral rfl rfl (numeral_intText n)
      · cases h
        cases kept
        exact .numeral rfl rfl (numeral_intText n)
  | double d =>
      cases h
      cases kept
      exact .double d
  | str s =>
      cases ofText_eq_iff.mp (Except.ok.inj h) with
      | bool word =>
          cases kept
          exact .word word
      | int numeral | float numeral =>
          cases kept
          exact .numeral rfl rfl numeral
      | str =>
          cases kept
          exact .text (short _ rfl)
  | arr js | obj ms => cases h

/-- Each single value of an operation was read from some document. -/
theorem Value.exists_ofJson (h : ofJson op j = .ok v) (mem : x ∈ v.scalars) :
    ∃ j, Scalar.ofJson j = .ok x := by
  cases ofJson_eq_ok_iff.mp h with
  | array items =>
      obtain ⟨j, -, hj⟩ := exists_of_mem_right items mem
      exact ⟨j, hj⟩
  | split =>
      obtain ⟨s, -, rfl⟩ := List.mem_map.mp mem
      exact ⟨.str s, rfl⟩
  | single _ hx =>
      obtain rfl := List.mem_singleton.mp mem
      exact ⟨_, hx⟩

theorem Value.first?_mem_scalars (h : v.first? = some x) : x ∈ v.scalars := by
  cases v with
  | scalar y =>
      cases h
      exact List.mem_cons_self
  | list xs => exact List.mem_of_mem_head? h

namespace Condition

variable {clock : Clock} {col : Column} {w : SqlValue} {p : Predicate}

theorem elements_subset_scalars (v : Value) : elements v ⊆ v.scalars := by
  cases v with
  | list xs => exact List.Subset.refl xs
  | scalar x =>
      cases x with
      | null => exact List.nil_subset _
      | str _ | int _ _ | float _ _ | bool _ _ => exact List.Subset.refl _

/-- What a text column is sent is the text that a value was read from. -/
theorem bind_text_iff : bind .text x = .ok w ↔ ∃ s, x.text? = some s ∧ w = .text s := by
  rw [bind_ok_iff, bind?.eq_def, Option.map_eq_some_iff]
  simp only [eq_comm]

/-- **A comparison and a set bind values of their condition.** -/
theorem predicate_compare_or_member
    (hop : (∃ c, op = .compare c) ∨ ∃ negated, op = .member negated)
    (h : predicate clock col op v = .ok (some p)) (hw : w ∈ p.params) :
    ∃ x ∈ v.scalars, bind col.type x = .ok w := by
  rcases hop with ⟨c, rfl⟩ | ⟨negated, rfl⟩
  · cases predicate_makes h with
    | @compare _ x _ first hp =>
        refine ⟨x, Value.first?_mem_scalars first, ?_⟩
        cases x with
        | null =>
            -- a comparison with null binds nothing
            cases c <;> cases hp <;> cases hw
        | str _ | int _ _ | float _ _ | bool _ _ =>
            obtain ⟨w', hw', hp⟩ := bind_eq_ok_iff.mp hp
            cases hp
            obtain rfl := List.mem_singleton.mp hw
            exact hw'
  · cases predicate_makes h with
    | member _ hp =>
        obtain ⟨ws, hws, hp⟩ := bind_eq_ok_iff.mp hp
        cases hp
        obtain ⟨x, hx, hbind⟩ := exists_of_mem_right (mapM_eq_ok_iff.mp hws) hw
        exact ⟨x, elements_subset_scalars v hx, bind_of_bindElement hbind⟩

/-- **A search is for the text of a value of its condition.** -/
theorem predicate_contains {negated : Bool}
    (h : predicate clock col (.contains negated) v = .ok (some p)) :
    ∃ x ∈ v.scalars, ∃ s, x.text? = some s ∧
      p = .like col (Text.containsPattern s) negated := by
  cases predicate_gives h with
  | contains first text => exact ⟨_, Value.first?_mem_scalars first, _, text, rfl⟩

end Condition

/-- The values of an accepted filter may be sent. -/
theorem Filter.sends_of_validate {cs : List Condition} {c : Condition} {s : String}
    (accepted : validate l j = .ok cs) (mem : c ∈ cs) (hx : x ∈ c.value.scalars)
    (kept : x.text? = some s) : x.Sends l s := by
  obtain ⟨fields, -, -, -, hread⟩ := validate_eq_ok_iff.mp accepted
  obtain ⟨w, -, hw⟩ := exists_of_mem_right hread mem
  obtain ⟨j, hj⟩ := Value.exists_ofJson hw.value hx
  have hwithin := checkValue_eq_ok_iff.mp hw.within
  refine Scalar.sends_of_ofJson hj (fun s hs => hwithin.short s ?_) kept
  rwa [← hs]

/-- **What is sent as text is under the ceiling, unless it is no text by its value.**  Of a filter
that is accepted, a comparison and a set bind for a text column the texts of values of theirs, and
a search in any column is for the pattern of such a text.  Each of them is under the ceiling, unless
its value is a boolean, which it is the word for, or a number, which it writes. -/
theorem texts_under_ceiling {clock : Clock} {t : Table} {a : AllowList} {cs : List Condition}
    {c : Condition} {p : Predicate} (accepted : Filter.validate l j = .ok cs) (mem : c ∈ cs)
    (compiled : c.compile clock t a = .ok (some p)) :
    ∃ col, Visible t a c.field col ∧
      (col.type = .text →
        ((∃ o, c.operator = .compare o) ∨ ∃ negated, c.operator = .member negated) →
        ∀ w ∈ p.params, ∃ x ∈ c.value.scalars, ∃ s, x.Sends l s ∧ w = .text s) ∧
      (∀ negated, c.operator = .contains negated → ∃ x ∈ c.value.scalars, ∃ s, x.Sends l s ∧
        p = .like col (Text.containsPattern s) negated) := by
  obtain ⟨col, visible, hp⟩ := Condition.compile_eq_ok_iff.mp compiled
  refine ⟨col, visible, fun htext hop w hw => ?_, fun negated hop => ?_⟩
  · obtain ⟨x, hx, hbind⟩ := Condition.predicate_compare_or_member hop hp hw
    rw [htext] at hbind
    obtain ⟨s, kept, rfl⟩ := Condition.bind_text_iff.mp hbind
    exact ⟨x, hx, s, Filter.sends_of_validate accepted mem hx kept, rfl⟩
  · rw [hop] at hp
    obtain ⟨x, hx, s, kept, rfl⟩ := Condition.predicate_contains hp
    exact ⟨x, hx, s, Filter.sends_of_validate accepted mem hx kept, rfl⟩

/-- Under a ceiling of three characters, a set of names may have one of as many characters and a
number of more. -/
theorem texts_under_ceiling_numbered :
    ∃ cs c, Filter.validate { maxStringLength := 3 }
        (.obj [("name", .obj [("in", .str "Ann,1234")])]) = .ok cs ∧ c ∈ cs ∧
      c.compile ⟨0, .utc⟩ people peopleAllowed =
        .ok (some (.inList ⟨"full_name", .text⟩ [.text "Ann", .text "1234"] false)) ∧
      ∀ w ∈ [SqlValue.text "Ann", .text "1234"], ∃ x ∈ c.value.scalars, ∃ s,
        x.Sends { maxStringLength := 3 } s ∧ w = .text s := by
  have accepted : Filter.validate { maxStringLength := 3 }
      (.obj [("name", .obj [("in", .str "Ann,1234")])]) =
        .ok [⟨"name", .member false, .list [.str "Ann", .int 1234 "1234"]⟩] := by decide
  have compiled : Condition.compile ⟨0, .utc⟩ people peopleAllowed
      ⟨"name", .member false, .list [.str "Ann", .int 1234 "1234"]⟩ =
        .ok (some (.inList ⟨"full_name", .text⟩ [.text "Ann", .text "1234"] false)) := rfl
  obtain ⟨col, visible, hset, -⟩ := texts_under_ceiling accepted List.mem_cons_self compiled
  cases visible.2
  exact ⟨_, _, accepted, List.mem_cons_self, compiled, hset rfl (.inr ⟨false, rfl⟩)⟩

/-- A boolean and a number are under no ceiling, and so are the texts they are sent as. -/
theorem texts_over_ceiling :
    Filter.validate { maxStringLength := 3 }
        (.obj [("name", .obj [("eq", .bool true), ("matches", .int 1234)])]) =
      .ok [⟨"name", .compare .eq, .scalar (.bool true "true")⟩,
        ⟨"name", .contains false, .scalar (.int 1234 "1234")⟩] ∧
    Condition.compile ⟨0, .utc⟩ people peopleAllowed
        ⟨"name", .compare .eq, .scalar (.bool true "true")⟩ =
      .ok (some (.compare ⟨"full_name", .text⟩ .eq (.text "true"))) ∧ 3 < "true".length ∧
    Condition.compile ⟨0, .utc⟩ people peopleAllowed
        ⟨"name", .contains false, .scalar (.int 1234 "1234")⟩ =
      .ok (some (.like ⟨"full_name", .text⟩ (Text.containsPattern "1234") false)) ∧
      3 < "1234".length := by
  exact ⟨by decide, rfl, by decide, rfl, by decide⟩

end ResourceQuery
