import ResourceQuery.Proofs.Traversal
import ResourceQuery.Schema.Table

/-!
# Schema — which declarations are tables

`Declaration.build_eq_ok_iff`: a declaration is a table exactly if all its names are identifiers and
no field is declared twice, and the table is then as declared.
-/

namespace ResourceQuery

/-- What is named none of `seen`, and no two of which are named alike, is so one by one. -/
theorem unseen_cons_iff {α : Type} {name : α → String} {seen : List String} {x : α} {xs : List α} :
    (((x :: xs).map name).Nodup ∧ ∀ y ∈ x :: xs, name y ∉ seen) ↔
      name x ∉ seen ∧ (xs.map name).Nodup ∧ ∀ y ∈ xs, name y ∉ name x :: seen := by
  simp only [List.map_cons, List.nodup_cons, List.mem_map, List.mem_cons, forall_eq_or_imp, not_or,
    not_exists, not_and]
  constructor
  · rintro ⟨⟨hx, hnodup⟩, hseen, hxs⟩
    exact ⟨hseen, hnodup, fun y hy => ⟨hx y hy, hxs y hy⟩⟩
  · rintro ⟨hseen, hnodup, hxs⟩
    exact ⟨⟨fun y hy => (hxs y hy).1, hnodup⟩, hseen, fun y hy => (hxs y hy).2⟩

/-- The names of a declared field and of its column are identifiers. -/
def NamedWell (m : String × Column) : Prop :=
  Text.isIdentifier m.1 = true ∧ Text.isIdentifier m.2.name = true

namespace Declaration

/-- All names are identifiers, and no field is declared twice. -/
structure Sound (d : Declaration) : Prop where
  name : Text.isIdentifier d.name = true
  deletedAt : ∀ c, d.deletedAt = some c → Text.isIdentifier c = true
  fields : ∀ m ∈ d.fields, NamedWell m
  nodup : (d.fields.map Prod.fst).Nodup

/-- The fields of a declaration pass exactly if they are named well and new. -/
theorem checkFields_eq_ok_iff {table : String} {seen : List String}
    {fs : List (String × Column)} :
    checkFields table seen fs = .ok () ↔
      (∀ m ∈ fs, NamedWell m) ∧ (fs.map Prod.fst).Nodup ∧ ∀ m ∈ fs, m.1 ∉ seen := by
  induction fs generalizing seen with
  | nil => simp [checkFields]
  | cons m fs ih =>
      obtain ⟨f, c⟩ := m
      rw [checkFields, unseen_cons_iff, List.forall_mem_cons]
      by_cases hnamed : NamedWell (f, c)
      · have hnames : (!Text.isIdentifier f || !Text.isIdentifier c.name) = false := by
          rw [hnamed.1, hnamed.2]
          rfl
        rw [hnames, if_neg Bool.false_ne_true]
        by_cases hseen : f ∈ seen
        · simp [hseen]
        · simp [hseen, hnamed, ih]
      · have hnames : (!Text.isIdentifier f || !Text.isIdentifier c.name) = true := by
          rw [← Bool.not_and, Bool.not_eq_true', ← Bool.not_eq_true, Bool.and_eq_true]
          exact hnamed
        rw [hnames, if_pos rfl]
        simp [hnamed]

theorem fields_sound_iff {d : Declaration} :
    checkFields d.name [] d.fields = .ok () ↔
      (∀ m ∈ d.fields, NamedWell m) ∧ (d.fields.map Prod.fst).Nodup := by
  rw [checkFields_eq_ok_iff]
  exact ⟨fun ⟨hfields, hnodup, _⟩ => ⟨hfields, hnodup⟩,
    fun ⟨hfields, hnodup⟩ => ⟨hfields, hnodup, fun _ _ => List.not_mem_nil⟩⟩

theorem build_of_named {d : Declaration} (hname : Text.isIdentifier d.name = true)
    (hmark : ∀ c, d.deletedAt = some c → Text.isIdentifier c = true) :
    d.build =
      (checkFields d.name [] d.fields).map fun _ => ⟨d.name, d.fields, d.deletedAt⟩ := by
  rw [build, if_neg (by simp [hname])]
  cases hd : d.deletedAt with
  | none => rfl
  | some c =>
      dsimp only
      rw [if_pos (hmark c hd)]

theorem named_of_build {d : Declaration} {t : Table} (h : d.build = .ok t) :
    Text.isIdentifier d.name = true ∧
      ∀ c, d.deletedAt = some c → Text.isIdentifier c = true := by
  rw [build] at h
  split at h
  · cases h
  · rename_i hname
    refine ⟨by simpa using hname, fun c hc => ?_⟩
    by_contra hid
    rw [hc] at h
    dsimp only at h
    rw [if_neg hid] at h
    cases h

/-- **A declaration is a table exactly if it is sound.** -/
theorem build_eq_ok_iff {d : Declaration} {t : Table} :
    d.build = .ok t ↔ d.Sound ∧ t = ⟨d.name, d.fields, d.deletedAt⟩ := by
  constructor
  · intro h
    obtain ⟨hname, hmark⟩ := named_of_build h
    rw [build_of_named hname hmark] at h
    obtain ⟨u, hcheck, rfl⟩ := map_eq_ok_iff.mp h
    obtain ⟨hfields, hnodup⟩ := fields_sound_iff.mp hcheck
    exact ⟨⟨hname, hmark, hfields, hnodup⟩, rfl⟩
  · rintro ⟨hsound, rfl⟩
    rw [build_of_named hsound.name hsound.deletedAt]
    exact map_eq_ok_iff.mpr ⟨(), fields_sound_iff.mpr ⟨hsound.fields, hsound.nodup⟩, rfl⟩

/-- The names of a table that was built are identifiers. -/
theorem isIdentifier_of_column? {d : Declaration} {t : Table} {field : String} {c : Column}
    (h : d.build = .ok t) (hc : t.column? field = some c) : Text.isIdentifier field = true := by
  obtain ⟨hsound, rfl⟩ := build_eq_ok_iff.mp h
  obtain ⟨before, rest, hfields, -⟩ := List.lookup_eq_some_iff.mp hc
  have hmem : (field, c) ∈ d.fields := by
    dsimp only at hfields
    rw [hfields]
    exact List.mem_append_right before List.mem_cons_self
  exact (hsound.fields _ hmem).1

end Declaration
end ResourceQuery
