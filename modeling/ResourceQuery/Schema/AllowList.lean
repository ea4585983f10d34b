/-!
# Schema — AllowList

The fields a caller may touch in one call.  The caller's order is kept, as it decides the order of
projection and search; a repeated name counts once, at its first place.
-/

namespace ResourceQuery

/-- The names a caller may use, each once. -/
structure AllowList where
  names : List String
  nodup : names.Nodup
  deriving DecidableEq, Repr

namespace AllowList

theorem nodup_eraseDups : ∀ names : List String, names.eraseDups.Nodup
  | [] => by simp
  | n :: ns => by
      rw [List.eraseDups_cons, List.nodup_cons]
      exact ⟨by simp [List.mem_eraseDups], nodup_eraseDups _⟩
termination_by names => names.length
decreasing_by exact Nat.lt_succ_of_le (List.length_filter_le _ _)

/-- The list of some names. -/
def ofList (names : List String) : AllowList :=
  ⟨names.eraseDups, nodup_eraseDups names⟩

/-- The name is allowed. -/
def contains (a : AllowList) (name : String) : Bool :=
  a.names.contains name

/-- Nothing is allowed. -/
def isEmpty (a : AllowList) : Bool :=
  a.names.isEmpty

/-- The names of a list are allowed and no other. -/
theorem contains_ofList (names : List String) (name : String) :
    (ofList names).contains name = true ↔ name ∈ names := by
  simp [contains, ofList, List.mem_eraseDups]

end AllowList
end ResourceQuery
