import ResourceQuery.Config.Limits
import ResourceQuery.Json.Parser
import ResourceQuery.Json.Record
import ResourceQuery.Number.Power
import ResourceQuery.Schema.Resource
import ResourceQuery.Sql.Backend

/-!
# Config — Layer

One layer of configuration, as a file gives it: whatever it is silent on is left to the layers
below.  `Layer.onto` lays one layer over another, and `Layer.stacked` any number of them.  A setting
comes from the upper layer if that one speaks; a resource of the upper layer takes the place of the
one of its name, or comes last if it is new.
-/

namespace ResourceQuery

/-- What a layer says about the database. -/
structure DatabaseLayer where
  backend : Option Backend := none
  url : Option String := none
  maxConnections : Option UInt32 := none
  acquireTimeout : Option Nat := none
  deriving DecidableEq, Repr

/-- What a layer says about the limits of list requests. -/
structure LimitsLayer where
  defaultLimit : Option UInt32 := none
  minLimit : Option UInt32 := none
  maxLimit : Option UInt32 := none
  maxFilterOperations : Option Nat := none
  maxStringLength : Option Nat := none
  maxArrayLength : Option Nat := none
  minSearchLength : Option Nat := none
  maxSearchLength : Option Nat := none
  maxSortLength : Option Nat := none
  maxFilterBytes : Option Nat := none
  deriving DecidableEq, Repr

/-- A layer of configuration. -/
structure Layer where
  database : DatabaseLayer := {}
  limits : LimitsLayer := {}
  resources : List Resource := []
  /-- The keys of the file that mean nothing. -/
  unknown : List String := []
  deriving Repr

/-- One database layer over another. -/
def DatabaseLayer.onto (high low : DatabaseLayer) : DatabaseLayer :=
  { backend := high.backend.or low.backend
    url := high.url.or low.url
    maxConnections := high.maxConnections.or low.maxConnections
    acquireTimeout := high.acquireTimeout.or low.acquireTimeout }

namespace LimitsLayer

/-- One layer of limits over another. -/
def onto (high low : LimitsLayer) : LimitsLayer :=
  { defaultLimit := high.defaultLimit.or low.defaultLimit
    minLimit := high.minLimit.or low.minLimit
    maxLimit := high.maxLimit.or low.maxLimit
    maxFilterOperations := high.maxFilterOperations.or low.maxFilterOperations
    maxStringLength := high.maxStringLength.or low.maxStringLength
    maxArrayLength := high.maxArrayLength.or low.maxArrayLength
    minSearchLength := high.minSearchLength.or low.minSearchLength
    maxSearchLength := high.maxSearchLength.or low.maxSearchLength
    maxSortLength := high.maxSortLength.or low.maxSortLength
    maxFilterBytes := high.maxFilterBytes.or low.maxFilterBytes }

/-- The limits of a layer over the built-in ones. -/
def resolve (l : LimitsLayer) : Limits :=
  let d : Limits := {}
  { defaultLimit := l.defaultLimit.getD d.defaultLimit
    minLimit := l.minLimit.getD d.minLimit
    maxLimit := l.maxLimit.getD d.maxLimit
    maxFilterOperations := l.maxFilterOperations.getD d.maxFilterOperations
    maxStringLength := l.maxStringLength.getD d.maxStringLength
    maxArrayLength := l.maxArrayLength.getD d.maxArrayLength
    minSearchLength := l.minSearchLength.getD d.minSearchLength
    maxSearchLength := l.maxSearchLength.getD d.maxSearchLength
    maxSortLength := l.maxSortLength.getD d.maxSortLength
    maxFilterBytes := l.maxFilterBytes.getD d.maxFilterBytes }

end LimitsLayer

/-- `rs` with `r` in place of the first resource of its name, or at the end if there is none. -/
def placeResource (rs : List Resource) (r : Resource) : List Resource :=
  match rs with
  | [] => [r]
  | s :: ss => if s.name = r.name then r :: ss else s :: placeResource ss r

/-- A resource that has been placed is found under its name, and every other name finds what it
found. -/
theorem find?_placeResource (rs : List Resource) (r : Resource) (name : String) :
    (placeResource rs r).find? (fun s => s.name == name) =
      if r.name = name then some r else rs.find? (fun s => s.name == name) := by
  induction rs with
  | nil => by_cases h : r.name = name <;> simp [placeResource, h]
  | cons s ss ih =>
      by_cases hs : s.name = r.name <;> by_cases hn : r.name = name <;>
        simp_all [placeResource, List.find?_cons]

/-- One layer over another. -/
def Layer.onto (high low : Layer) : Layer :=
  { database := high.database.onto low.database
    limits := high.limits.onto low.limits
    resources := high.resources.foldl placeResource low.resources
    unknown := low.unknown }

/-- Layers one over the other, the lowest first, over one that is silent. -/
def Layer.stacked (layers : List Layer) : Layer :=
  layers.foldl (fun low high => high.onto low) {}

/-! ## Reading -/

/-- A backend: its name, or an object with the name as its only key and null in it. -/
def Backend.ofJson? : Json → Option Backend
  | .str s => ofName? s
  | .obj [(k, .null)] => ofName? k
  | _ => none

/-- A number of 32 bits. -/
def word? (j : Json) : Option UInt32 :=
  (Json.below? wordCount j).map UInt32.ofNat

/-- A number of 64 bits. -/
def longWord? (j : Json) : Option Nat :=
  Json.below? longCount j

/-- What is set of the database in a file, in the order of a record. -/
def DatabaseLayer.keys : List String :=
  ["backend", "url", "max_connections", "acquire_timeout_secs"]

/-- What a file says about the database. -/
def DatabaseLayer.ofJson? (j : Json) : Option DatabaseLayer := do
  match ← j.record? DatabaseLayer.keys 4 with
  | [backend, url, maxConnections, acquireTimeout] =>
      return {
        backend := ← Json.optional Backend.ofJson? backend
        url := ← Json.optional Json.string? url
        maxConnections := ← Json.optional word? maxConnections
        acquireTimeout := ← Json.optional longWord? acquireTimeout }
  | _ => none

/-- The limits in a file, in the order of a record. -/
def LimitsLayer.keys : List String :=
  ["default_limit", "min_limit", "max_limit", "max_filter_operations", "max_string_length",
    "max_array_length", "min_search_length", "max_search_length", "max_sort_length",
    "max_filter_json_bytes"]

/-- What a file says about the limits. -/
def LimitsLayer.ofJson? (j : Json) : Option LimitsLayer := do
  match ← j.record? LimitsLayer.keys 10 with
  | [defaultLimit, minLimit, maxLimit, maxFilterOperations, maxStringLength, maxArrayLength,
      minSearchLength, maxSearchLength, maxSortLength, maxFilterBytes] =>
      return {
        defaultLimit := ← Json.optional word? defaultLimit
        minLimit := ← Json.optional word? minLimit
        maxLimit := ← Json.optional word? maxLimit
        maxFilterOperations := ← Json.optional longWord? maxFilterOperations
        maxStringLength := ← Json.optional longWord? maxStringLength
        maxArrayLength := ← Json.optional longWord? maxArrayLength
        minSearchLength := ← Json.optional longWord? minSearchLength
        maxSearchLength := ← Json.optional longWord? maxSearchLength
        maxSortLength := ← Json.optional longWord? maxSortLength
        maxFilterBytes := ← Json.optional longWord? maxFilterBytes }
  | _ => none

/-- The resources of a file. -/
def resourcesOfJson? : Json → Option (List Resource)
  | .arr js => js.mapM Resource.ofJson?
  | _ => none

/-- The keys of a layer. -/
def Layer.keys : List String := ["database", "query", "resources"]

/-- The layer a document holds: an object that has none of its known keys twice. -/
def Layer.ofJson? (j : Json) : Option Layer := do
  match j with
  | .obj ms =>
      match ← j.record? Layer.keys 3 with
      | [database, query, resources] =>
          return {
            database := (← Json.optional DatabaseLayer.ofJson? database).getD {}
            limits := (← Json.optional LimitsLayer.ofJson? query).getD {}
            resources := (← Json.optional resourcesOfJson? resources).getD []
            unknown := ((ms.map Prod.fst).filter fun k => !Layer.keys.contains k).eraseDups }
      | _ => none
  | _ => none

/-- What is looked for in a file.  All of its members are, as the unknown ones have to be told; of
what they hold, only the settings and the resources' own fields. -/
def Layer.shape : Json.Shape :=
  .record
    [("database", .fields DatabaseLayer.keys), ("query", .fields LimitsLayer.keys),
      ("resources", .items (.fields Resource.keys))]
    true

/-- The layer a text holds. -/
def Layer.parse? (s : String) : Option Layer :=
  (Json.documentOf? Layer.shape s).bind Layer.ofJson?

end ResourceQuery
