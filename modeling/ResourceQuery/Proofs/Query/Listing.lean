import ResourceQuery.Proofs.Query.Operation
import ResourceQuery.Proofs.Text.Item

/-!
# Query — a list as one text

A query string has no arrays: the operators that take several values read them off a comma-joined
text.

* `Value.ofJson_lists`: such a text has the value of the array of its items.
* `Filter.validate_relisted`: so a filter is accepted or refused alike, whichever way each of its
  lists is written.
* `Operator.joined_as_array`: and an operation comes to the same; and every list of items has a text
  that stands for it.
-/

namespace ResourceQuery

variable {op : Operator} {s : String} {ss : List String}

/-- The operators that take several values. -/
theorem Operator.splits_iff :
    op.splits = true ↔ op = .between ∨ ∃ negated, op = .member negated := by
  cases op with
  | between => exact iff_of_true rfl (.inl rfl)
  | member negated => exact iff_of_true rfl (.inr ⟨negated, rfl⟩)
  | compare c | contains negated | empty negated | relative =>
      refine iff_of_false nofun ?_
      rintro (h | ⟨_, h⟩) <;> cases h

/-- A comma-joined text is read as the values of its items. -/
theorem Value.ofJson_lists (several : op.splits = true) (comma : ',' ∈ s.toList)
    (lists : Text.Lists s.toList ss) :
    ofJson op (.str s) = .ok (list (ss.map Scalar.ofText)) := by
  rw [ofJson_eq_ok_iff.mpr (.split several comma), ofItems, Text.lists_iff.mp lists]

/-! ### Filters -/

namespace Filter

variable {l : Limits} {fields fields' : List (String × Json)}

/-- What an operation is given, in two writings: a comma-joined text and the array of its items, if
the operator of the name takes several values; or the same document. -/
inductive SameItems (name : String) : Json → Json → Prop where
  | same (j : Json) : SameItems name j j
  | listed {op : Operator} {s : String} {ss : List String} (known : Operator.ofName? name = some op)
      (several : op.splits = true) (comma : ',' ∈ s.toList) (lists : Text.Lists s.toList ss) :
      SameItems name (.str s) (.arr (ss.map .str))

/-- A field with its operations, in two writings. -/
inductive Relisted : String × Json → String × Json → Prop where
  | same (m : String × Json) : Relisted m m
  | operators (field : String) {ops ops' : List (String × Json)}
      (each : List.Forall₂ (fun o o' => o.1 = o'.1 ∧ SameItems o.1 o.2 o'.2) ops ops') :
      Relisted (field, .obj ops) (field, .obj ops')

theorem SameItems.readOperation {name : String} {j j' : Json} (h : SameItems name j j') :
    readOperation l name j = readOperation l name j' := by
  cases h with
  | same => rfl
  | listed known several comma lists =>
      simp only [Filter.readOperation, known, Value.ofJson_lists several comma lists,
        Value.ofJson_texts]

theorem operationFindings_of_sameItems (field : String) {ops ops' : List (String × Json)}
    (each : List.Forall₂ (fun o o' => o.1 = o'.1 ∧ SameItems o.1 o.2 o'.2) ops ops') :
    ops.map (operationFinding l field) = ops'.map (operationFinding l field) := by
  induction each with
  | nil => rfl
  | cons h _ ih =>
      obtain ⟨hname, hitems⟩ := h
      rw [List.map_cons, List.map_cons, ih, operationFinding, operationFinding,
        hitems.readOperation, hname]

theorem Relisted.operationCount {m m' : String × Json} (h : Relisted m m') :
    operationCount m.2 = operationCount m'.2 := by
  cases h with
  | same => rfl
  | operators field each => exact each.length_eq

theorem Relisted.fieldFindings {m m' : String × Json} (h : Relisted m m') :
    fieldFindings l m = fieldFindings l m' := by
  cases h with
  | same => rfl
  | operators field each =>
      simp only [Filter.fieldFindings, operationFindings_of_sameItems field each]

theorem findings_of_relisted (h : List.Forall₂ Relisted fields fields') :
    findings l fields = findings l fields' := by
  induction h with
  | nil => rfl
  | cons hm _ ih =>
      rw [findings] at ih
      simp only [findings, List.flatMap_cons, hm.fieldFindings, ih]

/-- **A filter is accepted or refused alike, whichever way its lists are written.** -/
theorem validate_relisted (h : List.Forall₂ Relisted fields fields') :
    validate l (.obj fields) = validate l (.obj fields') := by
  rw [validate, validate, operations_congr (h.imp fun _ _ hm => hm.operationCount),
    findings_of_relisted h]

end Filter

/-! ### Operations -/

namespace Operator

/-- **A comma-joined text and the array of its items are one value.**  The items are what the
segments between the commas are trimmed to, without the empty ones.  Whatever operator takes several
values, it reads the same list of them, and so an operation comes to the same on any field of any
table; a filter is accepted or refused alike, whichever way its lists are written.  And two items or
more, joined with commas and any white space around these, have the value of their array. -/
theorem joined_as_array (several : op = .between ∨ ∃ negated, op = .member negated) :
    (∀ s : String, ',' ∈ s.toList → ∃ ss, (∀ ss', Text.Lists s.toList ss' ↔ ss' = ss) ∧
      Value.ofJson op (.str s) = .ok (.list (ss.map Scalar.ofText)) ∧
      Value.ofJson op (.arr (ss.map .str)) = .ok (.list (ss.map Scalar.ofText)) ∧
      ∀ clock t a field r, op.CompilesTo clock t a field (.str s) r ↔
        op.CompilesTo clock t a field (.arr (ss.map .str)) r) ∧
    (∀ l fields fields', List.Forall₂ Filter.Relisted fields fields' →
      Filter.validate l (.obj fields) = Filter.validate l (.obj fields')) ∧
    ∀ ss cs, 2 ≤ ss.length → (∀ s ∈ ss, Text.Item s) → Text.Joined ss cs →
      Value.ofJson op (.str (String.ofList cs)) = .ok (.list (ss.map Scalar.ofText)) ∧
      Value.ofJson op (.arr (ss.map .str)) = .ok (.list (ss.map Scalar.ofText)) := by
  have hsplits := splits_iff.mpr several
  refine ⟨fun s comma => ?_, fun l fields fields' => Filter.validate_relisted,
    fun ss cs hlength items joined => ?_⟩
  · have hread := Value.ofJson_lists hsplits comma (Text.lists_iff.mpr rfl)
    have harray := Value.ofJson_texts op (Text.items s)
    refine ⟨Text.items s, fun ss' => ?_, hread, harray, fun clock t a field r => ?_⟩
    · rw [Text.lists_iff]
      exact eq_comm
    · rw [CompilesTo, CompilesTo, hread, harray]
  · refine ⟨Value.ofJson_lists hsplits ?_ ?_, Value.ofJson_texts op ss⟩
    · rw [String.toList_ofList]
      exact joined.comma_mem hlength
    · rw [String.toList_ofList]
      exact joined.lists items

/-- Two ages with an empty segment and wide white space between them are those of the array, also in
a filter; and so they are with white space before the comma. -/
theorem joined_as_array_ages :
    between.CompilesTo ⟨0, .utc⟩ people peopleAllowed "age" (.str " 18,\u3000, 65")
        (.ok (some (.between ⟨"age", .integer⟩ (.int 18) (.int 65)))) ∧
      Filter.validate {} (.obj [("age", .obj [("isBetween", .str " 18,\u3000, 65")])]) =
        Filter.validate {} (.obj [("age", .obj [("isBetween", .arr [.str "18", .str "65"])])]) ∧
      Value.ofJson between (.str (String.ofList "18 ,65".toList)) =
        .ok (.list [.int 18 "18", .int 65 "65"]) := by
  obtain ⟨hlist, hfilter, hjoined⟩ := joined_as_array (.inl rfl)
  obtain ⟨ss, hss, -, -, hcompiles⟩ := hlist " 18,\u3000, 65" (by decide)
  have hread : Text.items " 18,\u3000, 65" = ["18", "65"] := by decide
  have hages : ["18", "65"] = ss := (hss _).mp (Text.lists_iff.mpr hread)
  have harray : Value.ofJson between (.arr (["18", "65"].map .str)) =
      .ok (.list [.int 18 "18", .int 65 "65"]) := by decide
  have hitems : ∀ s ∈ ["18", "65"], Text.Item s := by
    intro s hs
    rw [← hread] at hs
    exact Text.item_of_mem_items hs
  have hblank : Text.Blanks [' '] := by
    intro c hc
    rw [List.mem_singleton.mp hc]
    rfl
  have hnone : Text.Blanks [] := nofun
  have hrelisted : Filter.SameItems "isBetween" (.str " 18,\u3000, 65")
      (.arr (["18", "65"].map .str)) :=
    .listed rfl rfl (by decide) (Text.lists_iff.mpr hread)
  refine ⟨?_, hfilter {} _ _ (.cons (.operators "age" (.cons ⟨rfl, hrelisted⟩ .nil)) .nil),
    (hjoined _ _ (by decide) hitems (.cons "18" hblank hnone (.last "65"))).1⟩
  rw [hcompiles, ← hages]
  exact ⟨_, harray, rfl⟩

end Operator
end ResourceQuery
