import ResourceQuery.Json.Value

/-!
# Json — Record

Reading records out of documents.  A record is an object in which none of its known keys is
repeated, other keys being passed over, or an array of its fields in order, of which those past the
required ones may be left out.  An optional field may be absent or null.
-/

namespace ResourceQuery.Json

/-- The fields `names` of a record, `none` for an absent one; an array has to hold at least
`required` of them. -/
def record? (names : List String) (required : Nat) : Json → Option (List (Option Json))
  | .obj ms =>
      if names.any fun n => 1 < (ms.filter fun m => m.1 == n).length then none
      else some (names.map fun n => ms.lookup n)
  | .arr js =>
      if required ≤ js.length ∧ js.length ≤ names.length then
        some (js.map some ++ List.replicate (names.length - js.length) none)
      else none
  | _ => none

/-- A string. -/
def string? : Json → Option String
  | .str s => some s
  | _ => none

/-- An array of strings. -/
def strings? : Json → Option (List String)
  | .arr js => js.mapM string?
  | _ => none

/-- A whole number below `bound`. -/
def below? (bound : Nat) : Json → Option Nat
  | .int n => if 0 ≤ n ∧ n < bound then some n.toNat else none
  | _ => none

/-- An optional field: absent and null are `none`; anything else has to be read by `read`. -/
def optional (read : Json → Option α) : Option Json → Option (Option α)
  | none => some none
  | some .null => some none
  | some j => (read j).map some

end ResourceQuery.Json
