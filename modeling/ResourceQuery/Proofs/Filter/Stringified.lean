import ResourceQuery.Filter.Grammar
import ResourceQuery.Proofs.Filter.Numeral
import ResourceQuery.Proofs.Filter.Reading
import ResourceQuery.Proofs.Json.Token

/-!
# Filter — a filter that is all text

A query string carries text alone, where a document has integers and booleans of its own.
`Json.stringifiedBelow` writes those of a document as their texts, wherever they stand in it.

* `ofText_intText`, `ofText_word`: an integer of 64 bits and a boolean are read back from their
  texts, with these texts kept.
* `ofJson_stringified`: so an operation has the same value, whichever way it is written.
* `validate_stringified`: and a filter comes to the same conditions, or to the same violations.
-/

namespace ResourceQuery

namespace Json

mutual

/-- The document with its integers of 64 bits and its booleans written as texts. -/
def stringified : Json → Json
  | .null => .null
  | .bool b => .str (toString b)
  | .int n => if Text.fitsSigned n then .str (intText n) else .int n
  | .double d => .double d
  | .str s => .str s
  | .arr items => .arr (stringifiedItems items)
  | .obj ms => .obj (stringifiedMembers ms)
termination_by structural j => j

/-- `stringified`, element by element. -/
def stringifiedItems : List Json → List Json
  | [] => []
  | j :: js => j.stringified :: stringifiedItems js
termination_by structural js => js

/-- `stringified`, member by member. -/
def stringifiedMembers : List (String × Json) → List (String × Json)
  | [] => []
  | (k, j) :: ms => (k, j.stringified) :: stringifiedMembers ms
termination_by structural ms => ms

end

/-- The document with all below its top level written as texts, where it can be. -/
def stringifiedBelow : Json → Json
  | .arr items => .arr (stringifiedItems items)
  | .obj ms => .obj (stringifiedMembers ms)
  | .null => .null
  | .bool b => .bool b
  | .int n => .int n
  | .double d => .double d
  | .str s => .str s

theorem stringifiedItems_eq : ∀ items, stringifiedItems items = items.map stringified
  | [] => rfl
  | j :: js => by rw [stringifiedItems, stringifiedItems_eq js, List.map_cons]

theorem stringifiedMembers_eq :
    ∀ ms, stringifiedMembers ms = ms.map fun m => (m.1, m.2.stringified)
  | [] => rfl
  | (k, j) :: ms => by rw [stringifiedMembers, stringifiedMembers_eq ms, List.map_cons]

end Json

/-! ### Values -/

namespace Scalar

theorem digits_toString (n : Nat) : Text.Digits (toString n).toList :=
  ⟨Text.toString_toList_ne_nil n, List.all_eq_true.mpr fun _ hc => Text.isDigit_of_mem_toString hc⟩

/-- The text of an integer is a numeral that writes it. -/
theorem numeral_intText (n : Int) :
    Numeral (Json.intText n).toList (decide (n < 0)) n.natAbs 0 := by
  have hwhole : ∀ m : Nat, Numeral.Unsigned (toString m).toList m 0 := by
    intro m
    have h := Numeral.Unsigned.whole (digits_toString m)
    rwa [Text.natOfDigits_toString] at h
  cases n with
  | ofNat m => exact .plain (hwhole m)
  | negSucc m =>
      rw [Json.intText_negSucc, decide_eq_true (Int.negSucc_lt_zero m)]
      exact .minus (hwhole (m + 1))

theorem signed_natAbs (n : Int) : Numeral.signed (decide (n < 0)) n.natAbs = n := by
  rw [Numeral.signed]
  split
  · rename_i h
    have := of_decide_eq_true h
    omega
  · rename_i h
    rw [decide_eq_true_eq] at h
    omega

/-- **An integer of 64 bits is read back from its text.** -/
theorem ofText_intText {n : Int} (h : Text.fitsSigned n = true) :
    ofText (Json.intText n) = .int n (Json.intText n) := by
  have hread := ReadAs.int (numeral_intText n) (by rwa [signed_natAbs])
  rw [signed_natAbs] at hread
  exact ofText_eq_iff.mpr hread

/-- **A boolean is read back from its word.** -/
theorem ofText_word (b : Bool) : ofText (toString b) = .bool b (toString b) := by
  cases b <;> decide

/-- There is no comma in a numeral. -/
theorem comma_not_mem_of_numeral {cs : List Char} {negative : Bool} {c k : Nat}
    (h : Numeral cs negative c k) : ',' ∉ cs := by
  have hdigits : ∀ {ds : List Char}, Text.Digits ds → ',' ∉ ds := by
    intro ds hds hmem
    have := List.all_eq_true.mp hds.2 _ hmem
    cases this
  have hunsigned : ∀ {ds : List Char}, Numeral.Unsigned ds c k → ',' ∉ ds := by
    intro ds hds
    cases hds with
    | whole digits => exact hdigits digits
    | decimals digits decimals => simp [hdigits digits, hdigits decimals]
  cases h with
  | plain h => exact hunsigned h
  | minus h => simp [hunsigned h]

theorem ofJson_stringified (j : Json) : ofJson j.stringified = ofJson j := by
  cases j with
  | null | double d | str s | arr items | obj ms => rfl
  | bool b =>
      show Except.ok (ofText (toString b)) = _
      rw [ofText_word]
      cases b <;> rfl
  | int n =>
      rw [Json.stringified]
      by_cases h : Text.fitsSigned n = true
      · rw [if_pos h]
        show Except.ok (ofText (Json.intText n)) = _
        rw [ofText_intText h, ofJson, if_pos h]
      · rw [if_neg h]

end Scalar

namespace Value

/-- **An operation has the same value when its document is all text.** -/
theorem ofJson_stringified (op : Operator) (j : Json) : ofJson op j.stringified = ofJson op j := by
  cases j with
  | null | double d | str s | obj ms => rfl
  | bool b =>
      have hcomma : ',' ∉ (toString b).toList := by cases b <;> decide
      rw [Json.stringified, ofJson_str fun _ => hcomma, Scalar.ofText_word]
      cases b <;> rfl
  | int n =>
      have hcomma := Scalar.comma_not_mem_of_numeral (Scalar.numeral_intText n)
      rw [Json.stringified]
      by_cases h : Text.fitsSigned n = true
      · rw [if_pos h, ofJson_str fun _ => hcomma, Scalar.ofText_intText h,
          ofJson_of_whole (j := .int n) nofun nofun, Scalar.ofJson, if_pos h]
        rfl
      · rw [if_neg h]
  | arr items =>
      rw [Json.stringified, Json.stringifiedItems_eq, ofJson, ofJson, List.mapM_map]
      congr 2
      funext j
      exact Scalar.ofJson_stringified j

end Value

/-! ### Filters -/

namespace Filter

variable {l : Limits}

theorem operationFinding_stringified (field : String) (o : String × Json) :
    operationFinding l field (o.1, o.2.stringified) = operationFinding l field o := by
  have hread : readOperation l o.1 o.2.stringified = readOperation l o.1 o.2 := by
    simp only [readOperation, Value.ofJson_stringified]
  rw [operationFinding, operationFinding, hread]

/-- A field comes to the same findings: what is no object of operators stays none. -/
theorem fieldFindings_stringified (m : String × Json) :
    fieldFindings l (m.1, m.2.stringified) = fieldFindings l m := by
  obtain ⟨field, j⟩ := m
  cases j with
  | obj ops =>
      have hops : (ops.map fun o => (o.1, o.2.stringified)).map (operationFinding l field) =
          ops.map (operationFinding l field) := by
        rw [List.map_map]
        exact List.map_congr_left fun o _ => operationFinding_stringified field o
      rw [Json.stringified, Json.stringifiedMembers_eq, fieldFindings, fieldFindings]
      dsimp only
      rw [hops]
  | null | double d | str s | arr items | bool b => rfl
  | int n =>
      rw [Json.stringified]
      split <;> rfl

theorem operationCount_stringified (j : Json) :
    operationCount j.stringified = operationCount j := by
  cases j with
  | obj ops =>
      rw [Json.stringified, Json.stringifiedMembers_eq, operationCount, List.length_map,
        operationCount]
  | null | double d | str s | arr items | bool b => rfl
  | int n =>
      rw [Json.stringified]
      split <;> rfl

theorem findings_stringified (fields : List (String × Json)) :
    findings l (fields.map fun m => (m.1, m.2.stringified)) = findings l fields := by
  rw [findings, findings, List.flatMap_map]
  simp only [fieldFindings_stringified]

theorem operations_stringified (fields : List (String × Json)) :
    operations (fields.map fun m => (m.1, m.2.stringified)) = operations fields := by
  rw [operations, operations, List.foldr_map]
  simp only [operationCount_stringified]

/-- **A query string and a document say the same.**  A filter whose integers of 64 bits and booleans
are written as texts, wherever they stand in it, comes to the same conditions, with the same texts
kept beside their values, or to the same violations. -/
theorem validate_stringified (l : Limits) (j : Json) :
    validate l j.stringifiedBelow = validate l j := by
  cases j with
  | obj fields =>
      rw [Json.stringifiedBelow, Json.stringifiedMembers_eq, validate, validate,
        operations_stringified, findings_stringified]
  | null | bool b | int n | double d | str s | arr items => rfl

end Filter
end ResourceQuery
