import ResourceQuery.Proofs.Traversal
import ResourceQuery.Query.Options

/-!
# Query — what a request is normalized to

* `normalize_eq_ok_iff`: a request is normalized exactly if each part of it is in order, part by
  part (`Normalized`).
* `one_le_pageNumber`, `pageSize_within`: the page is a positive number and its size is within the
  bounds, whatever was asked for.
-/

namespace ResourceQuery.ListRequest

variable {l : Limits} {r : ListRequest}

/-- The request is normalized to `o`, part by part. -/
structure Normalized (l : Limits) (r : ListRequest) (o : QueryOptions) : Prop where
  page : o.page = r.pageNumber
  limit : r.pageSize l = .ok o.limit
  sort : r.sortKey l = .ok o.sort
  search : r.searchTerm l = .ok o.search
  fields : o.fields = r.fieldNames
  filter : r.filterDocument l = .ok o.filter
  excludeDeleted : r.excludes = .ok o.excludeDeleted

/-- **What a request is normalized to, and when it is normalized at all.** -/
theorem normalize_eq_ok_iff {o : QueryOptions} : r.normalize l = .ok o ↔ Normalized l r o := by
  rw [normalize]
  constructor
  · intro h
    obtain ⟨limit, hlimit, h⟩ := bind_eq_ok_iff.mp h
    obtain ⟨sort, hsort, h⟩ := bind_eq_ok_iff.mp h
    obtain ⟨search, hsearch, h⟩ := bind_eq_ok_iff.mp h
    obtain ⟨filter, hfilter, h⟩ := bind_eq_ok_iff.mp h
    obtain ⟨excludeDeleted, hexclude, h⟩ := bind_eq_ok_iff.mp h
    cases h
    exact {
      page := rfl
      limit := hlimit
      sort := mapError_eq_ok_iff.mp hsort
      search := mapError_eq_ok_iff.mp hsearch
      fields := rfl
      filter := mapError_eq_ok_iff.mp hfilter
      excludeDeleted := mapError_eq_ok_iff.mp hexclude }
  · intro h
    refine bind_eq_ok_iff.mpr ⟨_, h.limit, ?_⟩
    refine bind_eq_ok_iff.mpr ⟨_, mapError_eq_ok_iff.mpr h.sort, ?_⟩
    refine bind_eq_ok_iff.mpr ⟨_, mapError_eq_ok_iff.mpr h.search, ?_⟩
    refine bind_eq_ok_iff.mpr ⟨_, mapError_eq_ok_iff.mpr h.filter, ?_⟩
    refine bind_eq_ok_iff.mpr ⟨_, mapError_eq_ok_iff.mpr h.excludeDeleted, ?_⟩
    rw [← h.page, ← h.fields]
    rfl

/-! ### The page and its size -/

theorem one_le_of_positive? {j : Json} {n : UInt32} (h : positive? j = some n) : 1 ≤ n := by
  simp only [positive?] at h
  split at h
  · rename_i k _
    split at h
    · cases h
      have hword : min k.toNat maxWord < wordCount := Nat.lt_of_le_of_lt (Nat.min_le_right _ _)
        (by decide)
      rw [UInt32.le_iff_toNat_le, UInt32.toNat_ofNat_of_lt' hword]
      have hone : 1 ≤ maxWord := by decide
      show 1 ≤ min k.toNat maxWord
      omega
    · cases h
  · cases h

/-- A positive number of a word is read as it is. -/
theorem positive?_toNat {n : UInt32} (h : 1 ≤ n) : positive? (.int n.toNat) = some n := by
  have hpositive : 0 < (n.toNat : Int) := by
    exact Int.ofNat_lt.mpr (UInt32.le_iff_toNat_le.mp h)
  have hmin : min n.toNat maxWord = n.toNat := Nat.min_eq_left (Nat.le_pred_of_lt n.toNat_lt)
  simp only [positive?, hpositive, if_true, Int.toNat_natCast, hmin, UInt32.ofNat_toNat]

theorem one_le_pageNumber (r : ListRequest) : 1 ≤ r.pageNumber := by
  rw [pageNumber]
  cases hpage : r.page.bind positive? with
  | none => decide
  | some n =>
      obtain ⟨j, -, hj⟩ := Option.bind_eq_some_iff.mp hpage
      exact one_le_of_positive? hj

/-- **The size of a page is within the bounds**, the default one being so. -/
theorem pageSize_within (hlow : l.minLimit ≤ l.defaultLimit) (hhigh : l.defaultLimit ≤ l.maxLimit)
    {n : UInt32} (h : r.pageSize l = .ok n) : l.minLimit ≤ n ∧ n ≤ l.maxLimit := by
  rw [pageSize] at h
  split at h
  · cases h
    exact ⟨hlow, hhigh⟩
  · rename_i m _
    obtain ⟨m', hm', hwithin⟩ :=
      Limits.exists_clamp? (decide_eq_true (UInt32.le_trans hlow hhigh)) m
    rw [hm'] at h
    cases h
    exact hwithin

end ResourceQuery.ListRequest
