import ResourceQuery.Config.Settings
import ResourceQuery.Proofs.Schema.Table

/-!
# Config — which settings are accepted

* `checkLimits_eq_ok_iff`: the limits pass exactly if their bounds are in order, with the default
  size between them.
* `checkResources_eq_ok_iff`: the resources pass exactly if each has a table and a name of its own.
* `accepted_iff`: settings are accepted exactly if they are sound.
-/

namespace ResourceQuery

/-- The bounds of page sizes and of search terms are in order, and the default size is between the
former. -/
structure Limits.Sound (l : Limits) : Prop where
  positive : l.minLimit ≠ 0
  ordered : l.minLimit ≤ l.maxLimit
  default_low : l.minLimit ≤ l.defaultLimit
  default_high : l.defaultLimit ≤ l.maxLimit
  search : l.minSearchLength ≤ l.maxSearchLength

/-- The name is an identifier, and the declaration makes a table. -/
structure Resource.Sound (r : Resource) : Prop where
  name : Text.isIdentifier r.name = true
  table : ∃ t, r.build = .ok t

namespace Settings

/-- The limits are sound, there may be connections, and the resources are sound and have different
names. -/
structure Sound (s : Settings) : Prop where
  limits : s.limits.Sound
  connections : s.database.maxConnections ≠ 0
  resources : ∀ r ∈ s.resources, r.Sound
  nodup : (s.resources.map Resource.name).Nodup

theorem checkLimits_eq_ok_iff {l : Limits} : checkLimits l = .ok () ↔ l.Sound := by
  rw [checkLimits]
  simp only [check_eq_ok_iff, not_or, UInt32.not_lt, Nat.not_lt, and_true]
  constructor
  · rintro ⟨hpositive, hordered, ⟨hlow, hhigh⟩, hsearch⟩
    exact ⟨hpositive, hordered, hlow, hhigh, hsearch⟩
  · rintro ⟨hpositive, hordered, hlow, hhigh, hsearch⟩
    exact ⟨hpositive, hordered, ⟨hlow, hhigh⟩, hsearch⟩

theorem checkResource_eq_ok_iff {seen : List String} {r : Resource} {t : Table} :
    checkResource seen r = .ok t ↔
      Text.isIdentifier r.name = true ∧ r.name ∉ seen ∧ r.build = .ok t := by
  rw [checkResource, check_eq_ok_iff, check_eq_ok_iff, mapError_eq_ok_iff, List.contains_iff_mem,
    Bool.not_eq_true', Bool.not_eq_false]

theorem checkResources_eq_ok_iff {seen : List String} {rs : List Resource} :
    (checkResources seen rs).2 = .ok () ↔
      (∀ r ∈ rs, r.Sound) ∧ (rs.map Resource.name).Nodup ∧ ∀ r ∈ rs, r.name ∉ seen := by
  induction rs generalizing seen with
  | nil => simp [checkResources]
  | cons r rs ih =>
      rw [checkResources, unseen_cons_iff, List.forall_mem_cons]
      cases hr : checkResource seen r with
      | error e =>
          constructor
          · intro h
            cases h
          · rintro ⟨⟨hsound, -⟩, hseen, -⟩
            obtain ⟨t, ht⟩ := hsound.table
            rw [checkResource_eq_ok_iff.mpr ⟨hsound.name, hseen, ht⟩] at hr
            cases hr
      | ok t =>
          obtain ⟨hname, hseen, ht⟩ := checkResource_eq_ok_iff.mp hr
          have hsound : r.Sound := ⟨hname, t, ht⟩
          simp only [ih, hsound, hseen, true_and, not_false_eq_true]

/-- **Settings are accepted exactly if they are sound.** -/
theorem accepted_iff {s : Settings} : s.accepted = true ↔ s.Sound := by
  have haccepted : s.accepted = true ↔ s.check.2 = .ok () := by
    rw [accepted]
    cases s.check.2 with
    | error e => simp
    | ok u => simp
  have hresources : (checkResources [] s.resources).2 = .ok () ↔
      (∀ r ∈ s.resources, r.Sound) ∧ (s.resources.map Resource.name).Nodup := by
    simp [checkResources_eq_ok_iff]
  rw [haccepted, check]
  cases hlimits : checkLimits s.limits with
  | error e =>
      constructor
      · intro h
        cases h
      · intro h
        rw [checkLimits_eq_ok_iff.mpr h.limits] at hlimits
        cases hlimits
  | ok u =>
      have hsound := checkLimits_eq_ok_iff.mp hlimits
      dsimp only
      split
      · rename_i hnone
        constructor
        · intro h
          cases h
        · exact fun h => absurd hnone h.connections
      · rename_i hsome
        rw [hresources]
        exact ⟨fun h => ⟨hsound, hsome, h.1, h.2⟩, fun h => ⟨h.resources, h.nodup⟩⟩

end Settings
end ResourceQuery
