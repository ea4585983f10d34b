import ResourceQuery.Proofs.Query.Accepted
import ResourceQuery.Proofs.Text.Item

/-!
# Query — options written back as a request

What a request is normalized to can be written as a request again (`QueryOptions.request`), and as
the document of one (`QueryOptions.document`).

* `Normalized.canonical`: under limits that are sound, what a request is normalized to is canonical:
  each part of it is as it stands in a request.
* `Canonical.normalize_request`: canonical options are what the request they are written as is
  normalized to.
* `normalize_idempotent`: so to normalize again changes nothing.
-/

namespace ResourceQuery

/-! ### Sort keys -/

namespace SortKey

/-- The text of a sort key: its field, after a hyphen for the descending order. -/
def text (key : SortKey) : String :=
  match key.direction with
  | .asc => key.field
  | .desc => "-" ++ key.field

/-- The sort key of a text, be it one or not. -/
def ofText (s : String) : SortKey :=
  match s.toList with
  | '-' :: cs => ⟨String.ofList cs, .desc⟩
  | _ => ⟨s, .asc⟩

variable {key : SortKey} {s : String} {n : Nat}

theorem toList_hyphen_append (s : String) : ("-" ++ s).toList = '-' :: s.toList :=
  String.toList_append

theorem text_ofText (s : String) : (ofText s).text = s := by
  rw [ofText]
  split
  · rename_i cs hcs
    show "-" ++ String.ofList cs = s
    rw [← String.toList_inj, hcs, toList_hyphen_append, String.toList_ofList]
  · rfl

/-- An identifier starts with no hyphen. -/
theorem ofText_text (name : Text.isIdentifier key.field = true) : ofText key.text = key := by
  obtain ⟨field, direction⟩ := key
  cases direction with
  | asc =>
      rw [text, ofText]
      dsimp only
      split
      · rename_i cs hcs
        rw [Text.isIdentifier, hcs] at name
        cases name
      · rfl
  | desc =>
      rw [text, ofText, toList_hyphen_append]
      exact congrArg (SortKey.mk · .desc) String.ofList_toList

/-- **The texts of a sort key.** -/
theorem parse?_eq_some_iff : parse? n s = some key ↔
    s = key.text ∧ key.text.utf8ByteSize ≤ n ∧ Text.isIdentifier key.field = true := by
  have hparse : parse? n s =
      if n < s.utf8ByteSize || !Text.isIdentifier (ofText s).field then none
      else some (ofText s) := rfl
  rw [hparse]
  constructor
  · intro h
    split at h
    · cases h
    · rename_i hfits
      obtain rfl := Option.some.inj h
      rw [Bool.or_eq_true, not_or, decide_eq_true_eq, Nat.not_lt, Bool.not_eq_true',
        Bool.not_eq_false] at hfits
      rw [text_ofText]
      exact ⟨rfl, hfits⟩
  · rintro ⟨rfl, hsize, name⟩
    rw [ofText_text name, name]
    exact if_neg (by simp [hsize])

theorem isEmpty_text (name : Text.isIdentifier key.field = true) : key.text.isEmpty = false := by
  rw [Bool.eq_false_iff, ne_eq, String.isEmpty_iff]
  obtain ⟨field, direction⟩ := key
  cases direction with
  | asc =>
      rintro rfl
      cases name
  | desc =>
      intro (hempty : "-" ++ field = "")
      have hchars := toList_hyphen_append field
      rw [hempty] at hchars
      cases hchars

/-- No white space is in the text of a sort key. -/
theorem trimmed_text (name : Text.isIdentifier key.field = true) :
    Text.Trimmed key.text.toList := by
  have hfield : ∀ c ∈ key.field.toList, Text.isBlank c = false := fun c hc =>
    Text.not_isBlank_of_isIdentifierRest (Text.isIdentifierRest_of_mem name hc)
  obtain ⟨field, direction⟩ := key
  cases direction with
  | asc => exact Text.trimmed_of_not_isBlank hfield
  | desc =>
      rw [text, toList_hyphen_append]
      exact Text.trimmed_of_not_isBlank (List.forall_mem_cons.mpr ⟨by decide, hfield⟩)

end SortKey

/-! ### Options -/

/-- The document of a value that may be absent. -/
def Json.orNull {α : Type} (write : α → Json) : Option α → Json
  | none => .null
  | some x => write x

namespace QueryOptions

/-- The options as a request. -/
def request (o : QueryOptions) : ListRequest where
  page := some (.int o.page.toNat)
  limit := some (.int o.limit.toNat)
  sort := o.sort.map SortKey.text
  search := o.search
  fields := o.fields
  filter := o.filter
  includeDeleted := some (.bool !o.excludeDeleted)

/-- The options as the document of a request. -/
def document (o : QueryOptions) : Json :=
  .obj [("page", .int o.page.toNat), ("limit", .int o.limit.toNat),
    ("sort", Json.orNull .str (o.sort.map SortKey.text)), ("search", Json.orNull .str o.search),
    ("fields", Json.orNull (fun fs => .arr (fs.map .str)) o.fields),
    ("filter", Json.orNull id o.filter), ("includeDeleted", .bool !o.excludeDeleted)]

/-- The term stands in a request as it is searched for. -/
structure Term (l : Limits) (s : String) : Prop where
  nonempty : s.isEmpty = false
  trimmed : Text.Trimmed s.toList
  low : l.minSearchLength ≤ s.length
  high : s.length ≤ l.maxSearchLength

/-- Each part of the options is as it stands in a request. -/
structure Canonical (l : Limits) (o : QueryOptions) : Prop where
  page : 1 ≤ o.page
  limit : 1 ≤ o.limit
  low : l.minLimit ≤ o.limit
  high : o.limit ≤ l.maxLimit
  sort : ∀ key, o.sort = some key →
    Text.isIdentifier key.field = true ∧ key.text.utf8ByteSize ≤ l.maxSortLength
  search : ∀ term, o.search = some term → Term l term
  fields : ∀ fields, o.fields = some fields → fields ≠ [] ∧ ∀ f ∈ fields, Text.Item f

end QueryOptions

namespace ListRequest

variable {l : Limits} {r : ListRequest} {o : QueryOptions} {s : String} {x : Option String}

/-! ### What is normalized is canonical -/

theorem trimmed_of_trimmed? (h : trimmed? x = some s) :
    Text.Trimmed s.toList ∧ s.isEmpty = false := by
  rw [trimmed?] at h
  split at h
  · rename_i t ht
    split at h
    · cases h
    · rename_i hne
      obtain rfl := Option.some.inj h
      obtain ⟨u, -, rfl⟩ := Option.map_eq_some_iff.mp ht
      exact ⟨Text.trimmed_trim u, Bool.eq_false_of_not_eq_true hne⟩
  · cases h

theorem sortKey_canonical {key : SortKey} (h : r.sortKey l = .ok (some key)) :
    Text.isIdentifier key.field = true ∧ key.text.utf8ByteSize ≤ l.maxSortLength := by
  rw [sortKey] at h
  split at h
  · cases h
  · split at h
    · rename_i hkey
      cases h
      obtain ⟨-, hsize, name⟩ := SortKey.parse?_eq_some_iff.mp hkey
      exact ⟨name, hsize⟩
    · cases h

theorem searchTerm_canonical {term : String} (h : r.searchTerm l = .ok (some term)) :
    QueryOptions.Term l term := by
  rw [searchTerm] at h
  split at h
  · cases h
  · rename_i t ht
    split at h
    · cases h
    · rename_i hlength
      cases h
      obtain ⟨trimmed, nonempty⟩ := trimmed_of_trimmed? ht
      rw [Bool.or_eq_true, not_or, decide_eq_true_eq, decide_eq_true_eq, Nat.not_lt,
        Nat.not_lt] at hlength
      exact ⟨nonempty, trimmed, hlength.1, hlength.2⟩

theorem fieldNames_canonical {fields : List String} (h : r.fieldNames = some fields) :
    fields ≠ [] ∧ ∀ f ∈ fields, Text.Item f := by
  rw [fieldNames] at h
  split at h
  · cases h
  · rename_i hne
    obtain ⟨fs, -, rfl⟩ := Option.map_eq_some_iff.mp h
    refine ⟨?_, fun f hf => ?_⟩
    · intro hnil
      rw [hnil] at h
      exact hne h
    · obtain ⟨t, -, ht⟩ := List.mem_flatMap.mp hf
      exact Text.item_of_mem_items ht

/-- **What a request is normalized to is canonical.** -/
theorem Normalized.canonical (sound : l.Sound) (h : Normalized l r o) : o.Canonical l := by
  obtain ⟨hlow, hhigh⟩ := pageSize_within sound.default_low sound.default_high h.limit
  have hmin : 1 ≤ l.minLimit := by
    rw [UInt32.le_iff_toNat_le]
    exact Nat.one_le_iff_ne_zero.mpr fun hzero => sound.positive (UInt32.toNat_inj.mp hzero)
  exact {
    page := h.page ▸ r.one_le_pageNumber
    limit := UInt32.le_trans hmin hlow
    low := hlow
    high := hhigh
    sort := fun key hkey => sortKey_canonical (hkey ▸ h.sort)
    search := fun term hterm => searchTerm_canonical (hterm ▸ h.search)
    fields := fun fields hfields => fieldNames_canonical (h.fields ▸ hfields) }

/-! ### What is canonical is normalized to itself -/

theorem trimmed?_of_trimmed (trimmed : Text.Trimmed s.toList) (nonempty : s.isEmpty = false) :
    trimmed? (some s) = some s := by
  rw [trimmed?, Option.map_some, Text.trim_of_trimmed trimmed]
  dsimp only
  rw [nonempty]
  rfl

end ListRequest

namespace QueryOptions

variable {l : Limits} {o : QueryOptions}

theorem pageNumber_request (h : 1 ≤ o.page) : o.request.pageNumber = o.page := by
  rw [ListRequest.pageNumber, request, Option.bind_some, ListRequest.positive?_toNat h]
  rfl

theorem pageSize_request (positive : 1 ≤ o.limit) (low : l.minLimit ≤ o.limit)
    (high : o.limit ≤ l.maxLimit) : o.request.pageSize l = .ok o.limit := by
  rw [ListRequest.pageSize, request, Option.bind_some, ListRequest.positive?_toNat positive]
  dsimp only
  rw [Limits.clamp?_of_within low high]

theorem sortKey_request (h : ∀ key, o.sort = some key →
    Text.isIdentifier key.field = true ∧ key.text.utf8ByteSize ≤ l.maxSortLength) :
    o.request.sortKey l = .ok o.sort := by
  rw [ListRequest.sortKey, request]
  dsimp only
  cases hsort : o.sort with
  | none => rfl
  | some key =>
      obtain ⟨name, hsize⟩ := h key hsort
      rw [Option.map_some, ListRequest.trimmed?_of_trimmed (SortKey.trimmed_text name)
        (SortKey.isEmpty_text name)]
      dsimp only
      rw [SortKey.parse?_eq_some_iff.mpr ⟨rfl, hsize, name⟩]

theorem searchTerm_request (h : ∀ term, o.search = some term → Term l term) :
    o.request.searchTerm l = .ok o.search := by
  rw [ListRequest.searchTerm, request]
  dsimp only
  cases hsearch : o.search with
  | none => rfl
  | some term =>
      have hterm := h term hsearch
      rw [ListRequest.trimmed?_of_trimmed hterm.trimmed hterm.nonempty]
      exact if_neg (by simp [hterm.low, hterm.high])

theorem fieldNames_request
    (h : ∀ fields, o.fields = some fields → fields ≠ [] ∧ ∀ f ∈ fields, Text.Item f) :
    o.request.fieldNames = o.fields := by
  rw [ListRequest.fieldNames, request]
  dsimp only
  cases hfields : o.fields with
  | none => rfl
  | some fields =>
      obtain ⟨hne, items⟩ := h fields hfields
      have hitems : fields.flatMap Text.items = fields := by
        rw [List.flatMap_congr fun f hf => (items f hf).items_eq, List.flatMap_singleton']
      rw [Option.map_some, hitems]
      split
      · rename_i hnil
        exact absurd (Option.some.inj hnil) hne
      · rfl

theorem filterDocument_request (h : ∀ j, o.filter = some j → ∃ ms, j = .obj ms) :
    o.request.filterDocument l = .ok o.filter := by
  rw [ListRequest.filterDocument, request]
  dsimp only
  cases hfilter : o.filter with
  | none => rfl
  | some j =>
      obtain ⟨ms, rfl⟩ := h j hfilter
      rfl

theorem excludes_request (o : QueryOptions) : o.request.excludes = .ok o.excludeDeleted :=
  congrArg Except.ok (Bool.not_not _)

/-- **Canonical options are what the request they are written as is normalized to.** -/
theorem Canonical.normalize_request (h : o.Canonical l)
    (filter : ∀ j, o.filter = some j → ∃ ms, j = .obj ms) : o.request.normalize l = .ok o :=
  ListRequest.normalize_eq_ok_iff.mpr {
    page := (pageNumber_request h.page).symm
    limit := pageSize_request h.limit h.low h.high
    sort := sortKey_request h.sort
    search := searchTerm_request h.search
    fields := (fieldNames_request h.fields).symm
    filter := filterDocument_request filter
    excludeDeleted := excludes_request o }

end QueryOptions

/-! ### The document of a request -/

theorem Json.optional_of_ne_null {α : Type} {read : Json → Option α} {j : Json} (h : j ≠ .null) :
    Json.optional read (some j) = (read j).map some := by
  cases j with
  | null => exact absurd rfl h
  | bool _ | int _ | double _ | str _ | arr _ | obj _ => rfl

theorem Json.optional_orNull {α : Type} {read : Json → Option α} {write : α → Json} {x : Option α}
    (present : ∀ a, x = some a → write a ≠ .null) (back : ∀ a, read (write a) = some a) :
    Json.optional read (some (orNull write x)) = some x := by
  cases x with
  | none => rfl
  | some a =>
      rw [orNull, optional_of_ne_null (present a rfl), back]
      rfl

theorem textsOfJson?_texts (ss : List String) : textsOfJson? (.arr (ss.map .str)) = some ss := by
  have hback : (ss.map Json.str).mapM Json.string? = some ss := by
    induction ss with
    | nil => rfl
    | cons s ss ih => rw [List.map_cons, List.mapM_cons, ih]; rfl
  exact hback

/-- The document of options is read as their request. -/
theorem QueryOptions.ofJson?_document {o : QueryOptions}
    (filter : ∀ j, o.filter = some j → ∃ ms, j = .obj ms) :
    ListRequest.ofJson? o.document = some o.request := by
  have hrecord : o.document.record? ListRequest.keys 0 =
      some [some (.int o.page.toNat), some (.int o.limit.toNat),
        some (Json.orNull .str (o.sort.map SortKey.text)), some (Json.orNull .str o.search),
        some (Json.orNull (fun fs => .arr (fs.map .str)) o.fields),
        some (Json.orNull id o.filter), some (.bool !o.excludeDeleted)] := rfl
  have htext : ∀ x, Json.optional Json.string? (some (Json.orNull .str x)) = some x :=
    fun x => Json.optional_orNull (fun _ _ => nofun) fun _ => rfl
  have hfields : Json.optional textsOfJson?
      (some (Json.orNull (fun fs => .arr (fs.map .str)) o.fields)) = some o.fields :=
    Json.optional_orNull (fun _ _ => nofun) textsOfJson?_texts
  have hfilter : Json.optional some (some (Json.orNull id o.filter)) = some o.filter := by
    refine Json.optional_orNull (fun j hj hnull => ?_) fun _ => rfl
    obtain ⟨ms, rfl⟩ := filter j hj
    cases hnull
  rw [ListRequest.ofJson?, hrecord]
  simp only [Option.bind_eq_bind, Option.bind_some, htext, hfields, hfilter]
  rfl

/-- **To normalize again changes nothing.**  Under settings that are accepted, each part of what a
request is normalized to is as it stands in a request: the page is a positive number, its size one
within the bounds, the sort field an identifier, the term trimmed and of a length within the bounds,
and each field one of a list.  If there is an object for a filter or none, the options have a
document; it is read as the request they are written as, and that is normalized to the same
options. -/
theorem normalize_idempotent {s : Settings} {r : ListRequest} {o : QueryOptions}
    (accepted : s.accepted = true) (h : r.normalize s.limits = .ok o) :
    o.Canonical s.limits ∧
      ((∀ j, o.filter = some j → ∃ ms, j = .obj ms) →
        ListRequest.ofJson? o.document = some o.request ∧
          o.request.normalize s.limits = .ok o) := by
  have hlimits := (Settings.accepted_iff.mp accepted).limits
  have hcanonical := (ListRequest.normalize_eq_ok_iff.mp h).canonical hlimits
  exact ⟨hcanonical, fun filter =>
    ⟨QueryOptions.ofJson?_document filter, hcanonical.normalize_request filter⟩⟩

/-- A request in which each part is written as loosely as can be. -/
def looseRequest : ListRequest where
  page := some (.str "3 ,")
  limit := some (.int 100000000000)
  sort := some " -age"
  search := some "\u3000ann lee "
  fields := some [" name,, age", ","]
  filter := some (.obj [("age", .obj [("gte", .str " 18")])])
  includeDeleted := some (.str " TRUE ")

/-- What it is normalized to. -/
def looseOptions : QueryOptions where
  page := 3
  limit := 50
  sort := some ⟨"age", .desc⟩
  search := some "ann lee"
  fields := some ["name", "age"]
  filter := some (.obj [("age", .obj [("gte", .str " 18")])])
  excludeDeleted := false

theorem normalize_idempotent_loose :
    peopleSettings.accepted = true ∧
      looseRequest.normalize peopleSettings.limits = .ok looseOptions ∧
      looseOptions.request.sort = some "-age" ∧
      looseOptions.request.normalize peopleSettings.limits = .ok looseOptions := by
  have accepted : peopleSettings.accepted = true := by decide +kernel
  have h : looseRequest.normalize peopleSettings.limits = .ok looseOptions := rfl
  have filter : ∀ j, looseOptions.filter = some j → ∃ ms, j = .obj ms := by
    rintro j ⟨⟩
    exact ⟨_, rfl⟩
  exact ⟨accepted, h, by decide, ((normalize_idempotent accepted h).2 filter).2⟩

end ResourceQuery
