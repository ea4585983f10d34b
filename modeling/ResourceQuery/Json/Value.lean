import ResourceQuery.Number.Double

/-!
# Json — Value

JSON documents.  An object keeps its members in the order they were written.  A number is an
integer or a double; an integer that is read from a text has at most 64 bits, signed or unsigned,
and larger numbers are read as doubles.

A document as written may repeat a key; `merged` gives each key its first position and its last
value.
-/

namespace ResourceQuery

/-- A JSON document. -/
inductive Json where
  | null
  | bool (b : Bool)
  /-- An integer of any size.  One that is read from a text has at most 64 bits, signed or unsigned,
  so what is said of every integer is said of some that no request has. -/
  | int (n : Int)
  | double (d : Double)
  | str (s : String)
  | arr (items : List Json)
  | obj (members : List (String × Json))
  deriving Inhabited, Repr

namespace Json

/-- The value of a key of an object. -/
def get? (key : String) : Json → Option Json
  | .obj ms => ms.lookup key
  | _ => none

/-- `ms` with `key` set to `v`: in place if the key is there, else at the end. -/
def put (key : String) (v : Json) : List (String × Json) → List (String × Json)
  | [] => [(key, v)]
  | (k, w) :: ms => if k = key then (k, v) :: ms else (k, w) :: put key v ms

/-- A key that has been set has its value, and every other key the one it had. -/
theorem lookup_put (key k : String) (v : Json) (ms : List (String × Json)) :
    (put key v ms).lookup k = if k = key then some v else ms.lookup k := by
  induction ms with
  | nil =>
      by_cases h : k = key
      · simp [put, h]
      · simp [put, List.lookup_cons, beq_false_of_ne h, h]
  | cons m ms ih =>
      obtain ⟨j, w⟩ := m
      by_cases hj : j = key
      · subst hj
        by_cases hk : k = j
        · simp [put, hk]
        · simp [put, List.lookup_cons, beq_false_of_ne hk, hk]
      · by_cases hk : k = j
        · subst hk
          simp [put, hj]
        · simp [put, hj, List.lookup_cons, beq_false_of_ne hk, ih]

/-- A key that is not there yet is put at the end. -/
theorem put_of_not_mem {key : String} {v : Json} : ∀ {ms : List (String × Json)},
    key ∉ ms.map Prod.fst → put key v ms = ms ++ [(key, v)]
  | [], _ => rfl
  | (k, w) :: ms, h => by
      rw [List.map_cons, List.mem_cons, not_or] at h
      rw [put, if_neg (Ne.symm h.1), put_of_not_mem h.2, List.cons_append]

/-- Each key once, at its first position and with its last value. -/
def mergeMembers (ms : List (String × Json)) : List (String × Json) :=
  ms.foldl (fun acc m => put m.1 m.2 acc) []

mutual

/-- The document with the repeated keys of every object merged. -/
def merged : Json → Json
  | .arr items => .arr (mergedItems items)
  | .obj ms => .obj (mergeMembers (mergedMembers ms))
  | j => j
termination_by structural j => j

/-- `merged`, element by element. -/
def mergedItems : List Json → List Json
  | [] => []
  | j :: js => j.merged :: mergedItems js
termination_by structural js => js

/-- `merged`, member by member. -/
def mergedMembers : List (String × Json) → List (String × Json)
  | [] => []
  | (k, j) :: ms => (k, j.merged) :: mergedMembers ms
termination_by structural ms => ms

end

end Json
end ResourceQuery
