import ResourceQuery.Config.Settings

/-!
# Config — which layer decides

* `Setting`: what layers, overrides and settings speak about, one by one.
* `said_stacked`: of layers one over the other, the last one that speaks of a setting is heard.
* `names_foldl_placeResource`, `find?_foldl_placeResource`: what becomes of resources that are placed
  one after the other.  Layers place theirs as one list would (`stacked_resources`).
* `settings_layered`: so each setting is decided on its own, and each resource is there once, as its
  last layer has it, in the place where it first came up.
-/

namespace ResourceQuery

/-- What is heard of a layer over another, if the upper one is heard first, is heard from the last of
several layers that speaks. -/
theorem Layer.heard_stacked {β : Type} {heard : Layer → Option β} {layers : List Layer}
    (hsilent : heard {} = none)
    (honto : ∀ high ∈ layers, ∀ low, heard (high.onto low) = (heard high).or (heard low)) :
    heard (Layer.stacked layers) = layers.reverse.findSome? heard := by
  -- over any layer in place of the silent one
  have hfold : ∀ low : Layer, heard (layers.foldl (fun low high => high.onto low) low) =
      (layers.reverse.findSome? heard).or (heard low) := by
    clear hsilent
    induction layers with
    | nil => exact fun _ => rfl
    | cons l ls ih =>
        intro low
        rw [List.foldl_cons, ih fun high h => honto high (List.mem_cons_of_mem l h),
          honto l List.mem_cons_self, List.reverse_cons, List.findSome?_append, Option.or_assoc]
        cases hl : heard l <;> simp [hl]
  rw [Layer.stacked, hfold, hsilent, Option.or_none]

/-! ### Settings -/

/-- What layers, overrides and settings speak about, with the type of its value. -/
inductive Setting : Type → Type where
  | backend : Setting Backend
  | url : Setting String
  | maxConnections : Setting UInt32
  | acquireTimeout : Setting Nat
  | defaultLimit : Setting UInt32
  | minLimit : Setting UInt32
  | maxLimit : Setting UInt32
  | maxFilterOperations : Setting Nat
  | maxStringLength : Setting Nat
  | maxArrayLength : Setting Nat
  | minSearchLength : Setting Nat
  | maxSearchLength : Setting Nat
  | maxSortLength : Setting Nat
  | maxFilterBytes : Setting Nat

namespace Setting

variable {α : Type}

/-- What a layer says of a setting. -/
def said : Setting α → Layer → Option α
  | backend, l => l.database.backend
  | url, l => l.database.url
  | maxConnections, l => l.database.maxConnections
  | acquireTimeout, l => l.database.acquireTimeout
  | defaultLimit, l => l.limits.defaultLimit
  | minLimit, l => l.limits.minLimit
  | maxLimit, l => l.limits.maxLimit
  | maxFilterOperations, l => l.limits.maxFilterOperations
  | maxStringLength, l => l.limits.maxStringLength
  | maxArrayLength, l => l.limits.maxArrayLength
  | minSearchLength, l => l.limits.minSearchLength
  | maxSearchLength, l => l.limits.maxSearchLength
  | maxSortLength, l => l.limits.maxSortLength
  | maxFilterBytes, l => l.limits.maxFilterBytes

/-- What the overrides say of a setting; five of them can be overridden. -/
def given : Setting α → Overrides → Option α
  | backend, o => o.backend
  | url, o => o.url
  | maxConnections, o => o.maxConnections
  | defaultLimit, o => o.defaultLimit
  | maxLimit, o => o.maxLimit
  | _, _ => none

/-- The value of a setting nobody speaks of. -/
def builtIn : Setting α → α
  | backend => .sqlite
  | url => "sqlite://tabula.db"
  | maxConnections => 10
  | acquireTimeout => 30
  | defaultLimit => 20
  | minLimit => 1
  | maxLimit => 100
  | maxFilterOperations => 20
  | maxStringLength => 255
  | maxArrayLength => 100
  | minSearchLength => 1
  | maxSearchLength => 100
  | maxSortLength => 50
  | maxFilterBytes => 65536

/-- The value of a setting. -/
def value : Setting α → Settings → α
  | backend, s => s.database.backend
  | url, s => s.database.url
  | maxConnections, s => s.database.maxConnections
  | acquireTimeout, s => s.database.acquireTimeout
  | defaultLimit, s => s.limits.defaultLimit
  | minLimit, s => s.limits.minLimit
  | maxLimit, s => s.limits.maxLimit
  | maxFilterOperations, s => s.limits.maxFilterOperations
  | maxStringLength, s => s.limits.maxStringLength
  | maxArrayLength, s => s.limits.maxArrayLength
  | minSearchLength, s => s.limits.minSearchLength
  | maxSearchLength, s => s.limits.maxSearchLength
  | maxSortLength, s => s.limits.maxSortLength
  | maxFilterBytes, s => s.limits.maxFilterBytes

/-- The upper layer is heard first. -/
theorem said_onto (k : Setting α) (high low : Layer) :
    k.said (high.onto low) = (k.said high).or (k.said low) := by
  cases k <;> rfl

/-- **The last layer that speaks is heard.** -/
theorem said_stacked (k : Setting α) (layers : List Layer) :
    k.said (Layer.stacked layers) = layers.reverse.findSome? k.said := by
  have hsilent : k.said {} = none := by
    cases k <;> rfl
  exact Layer.heard_stacked hsilent fun high _ low => k.said_onto high low

/-- A setting comes from the overrides, or else from the layer, or else is built in. -/
theorem value_ofLayer (k : Setting α) (l : Layer) (o : Overrides) :
    k.value (Settings.ofLayer l o) = ((k.given o).or (k.said l)).getD k.builtIn := by
  cases k with
  | defaultLimit => exact Option.getD_or.symm
  | maxLimit => exact Option.getD_or.symm
  | _ => rfl

end Setting

/-! ### Resources -/

/-- The names of the resources a layer lists. -/
def Layer.names (l : Layer) : List String :=
  l.resources.map Resource.name

/-- The resource a layer lists under a name. -/
def Layer.resource? (l : Layer) (name : String) : Option Resource :=
  l.resources.find? fun r => r.name == name

theorem Layer.onto_resources (high low : Layer) :
    (high.onto low).resources = high.resources.foldl placeResource low.resources :=
  rfl

/-- **Layers place their resources as one list would.** -/
theorem Layer.stacked_resources (layers : List Layer) :
    (Layer.stacked layers).resources =
      (layers.flatMap Layer.resources).foldl placeResource [] := by
  have hfold : ∀ low : Layer, (layers.foldl (fun low high => high.onto low) low).resources =
      (layers.flatMap Layer.resources).foldl placeResource low.resources := by
    induction layers with
    | nil => exact fun _ => rfl
    | cons l ls ih =>
        intro low
        rw [List.foldl_cons, ih, Layer.onto_resources, List.flatMap_cons, List.foldl_append]
  exact hfold {}

/-- A resource that is placed adds its name, if it is new, at the end. -/
theorem names_placeResource (rs : List Resource) (r : Resource) :
    (placeResource rs r).map Resource.name =
      if r.name ∈ rs.map Resource.name then rs.map Resource.name
      else rs.map Resource.name ++ [r.name] := by
  induction rs with
  | nil => rfl
  | cons s ss ih =>
      rw [placeResource]
      by_cases h : s.name = r.name
      · simp [h]
      · have hmem : r.name ∈ (s :: ss).map Resource.name ↔ r.name ∈ ss.map Resource.name := by
          rw [List.map_cons, List.mem_cons, or_iff_right (Ne.symm h)]
        rw [if_neg h, List.map_cons, ih]
        simp only [hmem]
        split <;> rfl

/-- One more item is new, or it changes nothing. -/
theorem eraseDups_concat (xs : List String) (x : String) :
    (xs ++ [x]).eraseDups = if x ∈ xs then xs.eraseDups else xs.eraseDups ++ [x] := by
  rw [List.eraseDups_append]
  by_cases h : x ∈ xs
  · simp [List.removeAll, h]
  · simp [List.removeAll, h, List.eraseDups_cons]

/-- **Resources that are placed one after the other have each of their names once**, in the order in
which these first come up. -/
theorem names_foldl_placeResource (rs : List Resource) :
    (rs.foldl placeResource []).map Resource.name = (rs.map Resource.name).eraseDups := by
  have hfold : ∀ (seen : List String) (placed : List Resource),
      placed.map Resource.name = seen.eraseDups →
        (rs.foldl placeResource placed).map Resource.name =
          (seen ++ rs.map Resource.name).eraseDups := by
    induction rs with
    | nil =>
        intro seen placed h
        rw [List.map_nil, List.append_nil]
        exact h
    | cons r rs ih =>
        intro seen placed h
        have hplaced : (placeResource placed r).map Resource.name =
            (seen ++ [r.name]).eraseDups := by
          rw [names_placeResource, eraseDups_concat, h]
          simp only [List.mem_eraseDups]
        rw [List.foldl_cons, ih _ _ hplaced, List.map_cons, List.append_assoc,
          List.singleton_append]
  exact hfold [] [] rfl

/-- **The last resource of a name that is placed is found**, or else what was there. -/
theorem find?_foldl_placeResource (rs placed : List Resource) (name : String) :
    (rs.foldl placeResource placed).find? (fun r => r.name == name) =
      (rs.reverse.find? fun r => r.name == name).or (placed.find? fun r => r.name == name) := by
  induction rs generalizing placed with
  | nil => rfl
  | cons r rs ih =>
      rw [List.foldl_cons, ih, find?_placeResource, List.reverse_cons, List.find?_append,
        Option.or_assoc]
      by_cases h : r.name = name <;> simp [h]

/-- Among different names, one is found from either end. -/
theorem find?_reverse_of_nodup {rs : List Resource} (h : (rs.map Resource.name).Nodup)
    (name : String) :
    rs.reverse.find? (fun r => r.name == name) = rs.find? fun r => r.name == name := by
  induction rs with
  | nil => rfl
  | cons r rs ih =>
      obtain ⟨hr, hrs⟩ := List.nodup_cons.mp h
      rw [List.reverse_cons, List.find?_append, ih hrs]
      by_cases hname : r.name = name
      · have hnone : rs.find? (fun r => r.name == name) = none := by
          rw [List.find?_eq_none]
          intro s hs hsame
          exact hr (List.mem_map.mpr ⟨s, hs, (eq_of_beq hsame).trans hname.symm⟩)
        simp [hnone, hname]
      · simp [hname]

namespace Layer

theorem resource?_onto {high : Layer} (h : high.names.Nodup) (low : Layer) (name : String) :
    (high.onto low).resource? name = (high.resource? name).or (low.resource? name) := by
  rw [resource?, onto_resources, find?_foldl_placeResource, find?_reverse_of_nodup h]
  rfl

/-- **The last layer that lists a name decides**, if none lists one twice. -/
theorem resource?_stacked {layers : List Layer} (h : ∀ l ∈ layers, l.names.Nodup) (name : String) :
    (stacked layers).resource? name = layers.reverse.findSome? fun l => l.resource? name :=
  @heard_stacked _ (fun l => l.resource? name) layers rfl
    fun high hhigh low => resource?_onto (h high hhigh) low name

theorem names_stacked (layers : List Layer) :
    (stacked layers).names = (layers.flatMap names).eraseDups := by
  rw [names, stacked_resources, names_foldl_placeResource, List.map_flatMap]
  rfl

theorem nodup_names_stacked (layers : List Layer) : (stacked layers).names.Nodup := by
  rw [names_stacked]
  exact AllowList.nodup_eraseDups _

end Layer

/-- **Each setting is decided on its own: by the overrides, or else by the last layer that speaks of
it, or else it is built in.  Each resource is there once**, in the order in which the names first
come up; and if no layer lists a name twice, it is as the last layer that lists it has it. -/
theorem settings_layered (layers : List Layer) (o : Overrides) :
    (∀ {α : Type} (k : Setting α), k.value (Settings.ofLayer (Layer.stacked layers) o) =
      ((k.given o).or (layers.reverse.findSome? k.said)).getD k.builtIn) ∧
    ((Settings.ofLayer (Layer.stacked layers) o).resources.map Resource.name).Nodup ∧
    (Settings.ofLayer (Layer.stacked layers) o).resources.map Resource.name =
      (layers.flatMap Layer.names).eraseDups ∧
    ((∀ l ∈ layers, l.names.Nodup) → ∀ name,
      (Settings.ofLayer (Layer.stacked layers) o).resource? name =
        layers.reverse.findSome? fun l => l.resource? name) := by
  refine ⟨fun k => ?_, Layer.nodup_names_stacked layers, Layer.names_stacked layers,
    fun h name => Layer.resource?_stacked h name⟩
  rw [k.value_ofLayer, k.said_stacked]

/-- What a user has for all projects. -/
def homeLayer : Layer where
  database := { url := some "sqlite://home.db", maxConnections := some 4 }
  limits := { defaultLimit := some 10, maxLimit := some 50 }
  resources := [⟨"people", "people", [("name", ⟨none, .text⟩)], none, none⟩,
    ⟨"teams", "teams", [("label", ⟨none, .text⟩)], none, none⟩]

/-- What a user has for one project. -/
def projectLayer : Layer where
  database := { url := some "sqlite://project.db" }
  limits := { maxLimit := some 80 }
  resources := [⟨"teams", "crews", [("size", ⟨none, .integer⟩)], none, none⟩,
    ⟨"tags", "tags", [("label", ⟨none, .text⟩)], none, none⟩]

/-- The default size is given, the project is silent on connections, and both layers on the least
size; both have teams. -/
theorem settings_layered_projectOverHome :
    (∀ l ∈ [homeLayer, projectLayer], l.names.Nodup) ∧
      ∃ s, s = Settings.ofLayer (Layer.stacked [homeLayer, projectLayer])
          { defaultLimit := some 30 } ∧
        Setting.defaultLimit.value s = 30 ∧ Setting.maxLimit.value s = 80 ∧
        Setting.maxConnections.value s = 4 ∧ Setting.minLimit.value s = 1 ∧
        s.resources.map Resource.name = ["people", "teams", "tags"] ∧
        (s.resource? "teams").map Resource.table = some "crews" := by
  have hdistinct : ∀ l ∈ [homeLayer, projectLayer], l.names.Nodup := by decide +kernel
  obtain ⟨hvalue, -, hnames, hlast⟩ :=
    settings_layered [homeLayer, projectLayer] { defaultLimit := some 30 }
  refine ⟨hdistinct, _, rfl, (hvalue .defaultLimit).trans rfl, (hvalue .maxLimit).trans rfl,
    (hvalue .maxConnections).trans rfl, (hvalue .minLimit).trans rfl,
    hnames.trans (by decide +kernel), ?_⟩
  rw [hlast hdistinct]
  rfl

end ResourceQuery
