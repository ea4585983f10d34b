import ResourceQuery.Config.Load
import ResourceQuery.Proofs.Config.Layering
import ResourceQuery.Proofs.Config.Settings

/-!
# Config — names that are listed twice

A name that layers list more than once, be it one of them alone, is there once in the settings, as it
is listed last.

* `check_unrepeated`: so no check ever finds a name twice, and
* `load_unrepeated`: loading is never refused for one.
* `repeats_kept_last`: settings are accepted exactly if what is kept of them is sound.
-/

namespace ResourceQuery

/-- The name that a refusal says is listed twice. -/
def ConfigError.repeated? : ConfigError → Option String
  | duplicateResource name => some name
  | _ => none

/-- The refusal is not about a name that is listed twice. -/
def ConfigError.Unrepeated (e : ConfigError) : Prop :=
  e.repeated? = none

namespace Settings

/-! ### Checks -/

theorem checkLimits_unrepeated (l : Limits) : FailsOnly ConfigError.Unrepeated (checkLimits l) := by
  rw [checkLimits]
  exact .check rfl (.check rfl (.check rfl (.check rfl (.ok ()))))

theorem checkResource_unrepeated {seen : List String} {r : Resource} (h : r.name ∉ seen) :
    FailsOnly ConfigError.Unrepeated (checkResource seen r) := by
  have hnew : ¬ seen.contains r.name = true := fun hseen => h (List.contains_iff_mem.mp hseen)
  have hany : FailsOnly (fun _ => True) r.build := fun _ _ => trivial
  rw [checkResource, if_neg hnew]
  exact .check rfl (hany.mapError fun _ _ => rfl)

/-- Of different names that are new, none is found twice. -/
theorem checkResources_unrepeated {seen : List String} {rs : List Resource}
    (h : (rs.map Resource.name).Nodup ∧ ∀ r ∈ rs, r.name ∉ seen) :
    FailsOnly ConfigError.Unrepeated (checkResources seen rs).2 := by
  induction rs generalizing seen with
  | nil => exact FailsOnly.ok ()
  | cons r rs ih =>
      obtain ⟨hr, hrs⟩ := unseen_cons_iff.mp h
      rw [checkResources]
      cases hx : checkResource seen r with
      | error e => exact FailsOnly.error_iff.mpr (checkResource_unrepeated hr e hx)
      | ok t => exact ih hrs

theorem check_unrepeated {s : Settings} (h : (s.resources.map Resource.name).Nodup) :
    FailsOnly ConfigError.Unrepeated s.check.2 := by
  rw [check]
  cases hlimits : checkLimits s.limits with
  | error e => exact FailsOnly.error_iff.mpr (checkLimits_unrepeated s.limits e hlimits)
  | ok u =>
      dsimp only
      split
      · exact FailsOnly.error_iff.mpr rfl
      · exact checkResources_unrepeated ⟨h, fun _ _ => List.not_mem_nil⟩

/-! ### Loading -/

theorem mergedLayers_eq_stacked (profile top : Option Layer) :
    mergedLayers profile top = Layer.stacked (profile.toList ++ top.toList) := by
  cases profile <;> cases top <;> rfl

/-- The names of settings are different, whatever layers they come from. -/
theorem nodup_names_ofLayer (profile top : Option Layer) (o : Overrides) :
    ((ofLayer (mergedLayers profile top) o).resources.map Resource.name).Nodup := by
  rw [mergedLayers_eq_stacked]
  exact Layer.nodup_names_stacked _

theorem readLayer_unrepeated (path : String) (e : Entry) :
    FailsOnly ConfigError.Unrepeated (readLayer path e) := by
  cases e with
  | text s =>
      rw [readLayer]
      cases Layer.parse? s with
      | none => exact FailsOnly.error_iff.mpr rfl
      | some l => exact FailsOnly.ok l
  | missing | directory | binary => exact FailsOnly.error_iff.mpr rfl

theorem profileLayer_unrepeated (files : Files) (place : Path.Place) :
    FailsOnly ConfigError.Unrepeated (profileLayer files place) := by
  rw [profileLayer]
  split
  · exact (readLayer_unrepeated _ _).map some
  · exact FailsOnly.ok none

theorem overlayLayer_unrepeated (files : Files) (place : Path.Place) (o : Overrides) :
    FailsOnly ConfigError.Unrepeated (overlayLayer files place o) := by
  rw [overlayLayer]
  split
  · dsimp only
    split
    · exact (readLayer_unrepeated _ _).map some
    · exact FailsOnly.error_iff.mpr rfl
  · split
    · exact (readLayer_unrepeated _ _).map some
    · exact FailsOnly.ok none

/-- **Loading is never refused for a name that is listed twice.** -/
theorem load_unrepeated (files : Files) (place : Path.Place) (o : Overrides) :
    FailsOnly ConfigError.Unrepeated (load files place o).2 := by
  rw [load]
  cases hprofile : profileLayer files place with
  | error e => exact FailsOnly.error_iff.mpr (profileLayer_unrepeated files place e hprofile)
  | ok profile =>
      cases htop : overlayLayer files place o with
      | error e => exact FailsOnly.error_iff.mpr (overlayLayer_unrepeated files place o e htop)
      | ok top => exact (check_unrepeated (nodup_names_ofLayer profile top o)).map _

end Settings

/-- **A name that is listed twice is kept once, as it is listed last, and is no cause for refusal.**
Settings are accepted exactly if what is kept is sound, and neither their check nor the loading of
any files tells that a name is listed twice. -/
theorem repeats_kept_last (profile top : Option Layer) (o : Overrides) :
    (∀ name, (Settings.ofLayer (Settings.mergedLayers profile top) o).resource? name =
      ((profile.toList ++ top.toList).flatMap Layer.resources).reverse.find?
        fun r => r.name == name) ∧
    ((Settings.ofLayer (Settings.mergedLayers profile top) o).accepted = true ↔
      (Settings.ofLayer (Settings.mergedLayers profile top) o).limits.Sound ∧
      (Settings.ofLayer (Settings.mergedLayers profile top) o).database.maxConnections ≠ 0 ∧
      ∀ r ∈ (Settings.ofLayer (Settings.mergedLayers profile top) o).resources, r.Sound) ∧
    (∀ name, (Settings.ofLayer (Settings.mergedLayers profile top) o).check.2 ≠
      .error (.duplicateResource name)) ∧
    ∀ files place name, (Settings.load files place o).2 ≠ .error (.duplicateResource name) := by
  have hnodup := Settings.nodup_names_ofLayer profile top o
  refine ⟨fun name => ?_, ?_, fun name h => ?_, fun files place name h => ?_⟩
  · rw [Settings.mergedLayers_eq_stacked, Settings.resource?, Settings.ofLayer,
      Layer.stacked_resources, find?_foldl_placeResource, List.find?_nil, Option.or_none]
  · rw [Settings.accepted_iff]
    exact ⟨fun h => ⟨h.limits, h.connections, h.resources⟩,
      fun ⟨hlimits, hconnections, hresources⟩ => ⟨hlimits, hconnections, hresources, hnodup⟩⟩
  · cases Settings.check_unrepeated hnodup _ h
  · cases Settings.load_unrepeated files place o _ h

/-- A layer that lists users twice. -/
def twiceListed : Layer where
  resources := [⟨"users", "people", [("name", ⟨none, .text⟩)], none, none⟩,
    ⟨"users", "accounts", [("email", ⟨none, .text⟩)], none, none⟩]

/-- A layer that lists a name twice is accepted, with the second of the two. -/
theorem twiceListed_accepted :
    ¬ twiceListed.names.Nodup ∧
      (Settings.ofLayer (Settings.mergedLayers none (some twiceListed)) {}).accepted = true ∧
      (Settings.ofLayer (Settings.mergedLayers none (some twiceListed)) {}).resources.map
        Resource.table = ["accounts"] := by
  exact ⟨by decide +kernel, by decide +kernel, by decide +kernel⟩

end ResourceQuery
