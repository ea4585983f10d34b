import ResourceQuery.Proofs.Query.Accepted
import ResourceQuery.Store.Empty

/-!
# Query — windows within signed words

A store reads the bounds of a window as signed words of 64 bits.  The size of a page always is one;
where the page starts is one for every page if the largest size is at most `widestLimit`, and that is
the largest size of which this is true.

* `start_lt_signedCount`, `signedCount_le_start`: the two sides of this size.
* `normalize_farthest`, `exists_plan_farthest`: the request that reaches farthest is accepted and
  planned, on every table of which something is visible.
* `windows_within_words`: so under accepted settings all windows stay within signed words exactly if
  the largest size is at most `widestLimit`.
-/

namespace ResourceQuery

/-- The largest size of pages that all start within signed words of 64 bits, `2³¹ + 1`. -/
def widestLimit : Nat := 2147483649

/-! ### Where a page starts -/

theorem start_lt_signedCount {page limit : Nat} (hpage : page < wordCount)
    (hlimit : limit ≤ widestLimit) : (page - 1) * limit < signedCount := by
  calc (page - 1) * limit
      ≤ (wordCount - 2) * widestLimit := Nat.mul_le_mul (Nat.sub_le_sub_right hpage 2) hlimit
    _ < signedCount := by decide

/-- On larger pages the last one starts too far. -/
theorem signedCount_le_start {limit : Nat} (h : widestLimit < limit) :
    signedCount ≤ (ListRequest.maxWord - 1) * limit := by
  calc signedCount
      ≤ (ListRequest.maxWord - 1) * (widestLimit + 1) := by decide
    _ ≤ (ListRequest.maxWord - 1) * limit := Nat.mul_le_mul_left _ h

/-! ### The request that reaches farthest -/

/-- The last page there is, as large as the limits have it. -/
def ListRequest.farthest (l : Limits) : ListRequest where
  page := some (.int (4294967295 : UInt32).toNat)
  limit := some (.int l.maxLimit.toNat)

theorem ListRequest.normalize_farthest {l : Limits} (h : l.Sound) :
    (farthest l).normalize l = .ok { page := 4294967295, limit := l.maxLimit } := by
  have hone : 1 ≤ l.minLimit := UInt32.le_iff_toNat_le.mpr
    (Nat.one_le_iff_ne_zero.mpr fun hzero => h.positive (UInt32.toNat_inj.mp hzero))
  have hpage : positive? (.int (4294967295 : UInt32).toNat) = some 4294967295 :=
    positive?_toNat (by decide)
  have hlimit : positive? (.int l.maxLimit.toNat) = some l.maxLimit :=
    positive?_toNat (UInt32.le_trans hone h.ordered)
  refine normalize_eq_ok_iff.mpr {
    page := ?_
    limit := ?_
    sort := rfl
    search := rfl
    fields := rfl
    filter := rfl
    excludeDeleted := rfl }
  · rw [pageNumber, farthest, Option.bind_some, hpage]
    rfl
  · rw [pageSize, farthest, Option.bind_some, hlimit]
    dsimp only
    rw [Limits.clamp?_of_within h.ordered (UInt32.le_refl _)]

variable {clock : Clock} {l : Limits} {t : Table} {a : AllowList}

/-- A page of all that is visible is planned. -/
theorem exists_plan_of_visible (hne : visibleColumns t a ≠ []) (page : UInt32) {limit : UInt32}
    (hlow : l.minLimit ≤ limit) (hhigh : limit ≤ l.maxLimit) :
    ∃ p, plan clock l t a { page, limit } = .ok p := by
  refine ⟨⟨t.name, liveness t { page, limit } ++ [] ++ [], visibleColumns t a, none, max page 1,
    limit⟩, plan_eq_ok_iff.mpr ?_⟩
  exact {
    table := rfl
    conditions := ⟨_, _, _, liveness_eq_iff.mp rfl, .absent, .absent, rfl⟩
    columns := rfl
    visible := hne
    asked := fun fields hfields => by cases hfields
    order := .absent
    page := rfl
    limit := Limits.clamp?_of_within hlow hhigh }

/-- The last page there is, as large as the limits have it, is planned to start where it starts. -/
theorem exists_plan_farthest (h : l.Sound) (hne : visibleColumns t a ≠ []) :
    ∃ p, plan clock l t a { page := 4294967295, limit := l.maxLimit } = .ok p ∧
      p.offset = (ListRequest.maxWord - 1) * l.maxLimit.toNat := by
  have hpage : (1 : UInt32) ≤ 4294967295 := by decide
  obtain ⟨p, hp⟩ := exists_plan_of_visible hne 4294967295 h.ordered (UInt32.le_refl _)
  have hplanned := plan_eq_ok_iff.mp hp
  refine ⟨p, hp, ?_⟩
  rw [Plan.offset, hplanned.page_eq hpage, hplanned.limit_eq h.ordered (UInt32.le_refl _)]
  rfl

/-- **Windows stay within signed words of 64 bits exactly if the largest size of a page is at most
`2³¹ + 1`.**  Under accepted settings the size of a page always is such a word, and the window is
written exactly.  Where larger pages are allowed, the request for the last page there is, as large
as they may be, is accepted, and on every table of which something is visible it is planned to start
too far. -/
theorem windows_within_words {s : Settings} (h : s.accepted = true) :
    (∀ r o clock t a p, ListRequest.normalize s.limits r = .ok o →
      plan clock s.limits t a o = .ok p →
        (∀ b, ∃ front, p.select.text b =
          front ++ " LIMIT " ++ toString p.limit.toNat ++ " OFFSET " ++ toString p.offset) ∧
        ((p.page - 1).toUInt64 * p.limit.toUInt64).toNat = p.offset ∧
        p.limit.toNat < signedCount ∧
        (s.limits.maxLimit.toNat ≤ widestLimit → p.offset < signedCount)) ∧
    (widestLimit < s.limits.maxLimit.toNat →
      (ListRequest.farthest s.limits).normalize s.limits =
          .ok { page := 4294967295, limit := s.limits.maxLimit } ∧
        ∀ clock t a, visibleColumns t a ≠ [] →
          ∃ p, plan clock s.limits t a { page := 4294967295, limit := s.limits.maxLimit } = .ok p ∧
            signedCount ≤ p.offset) := by
  have hlimits := (Settings.accepted_iff.mp h).limits
  refine ⟨fun r o clock t a p ho hp => ?_, fun hwide => ?_⟩
  · have hnormal := ListRequest.normalize_eq_ok_iff.mp ho
    have hplanned := plan_eq_ok_iff.mp hp
    have hpage : 1 ≤ o.page := hnormal.page ▸ r.one_le_pageNumber
    obtain ⟨hlow, hhigh⟩ :=
      ListRequest.pageSize_within hlimits.default_low hlimits.default_high hnormal.limit
    refine ⟨fun b => ?_, Plan.offset_eq_word ?_, ?_, fun hnarrow => ?_⟩
    · refine ⟨Piece.text b (p.heading ++ p.source) ++ Plan.orderText p.order, ?_⟩
      rw [Plan.text_select, Plan.windowText]
      simp only [String.append_assoc]
    · rw [hplanned.page_eq hpage]
      exact UInt32.le_iff_toNat_le.mp hpage
    · exact Nat.lt_trans p.limit.toNat_lt (by decide)
    · refine start_lt_signedCount p.page.toNat_lt (Nat.le_trans ?_ hnarrow)
      rw [hplanned.limit_eq hlow hhigh]
      exact UInt32.le_iff_toNat_le.mp hhigh
  · refine ⟨ListRequest.normalize_farthest hlimits, fun clock t a hne => ?_⟩
    obtain ⟨p, hp, hoffset⟩ := exists_plan_farthest hlimits hne
    exact ⟨p, hp, hoffset ▸ signedCount_le_start hwide⟩

/-- Settings under which pages may be as large as `n`. -/
def settingsUpTo (n : UInt32) : Settings where
  database := ⟨.sqlite, "sqlite::memory:", 10, 30⟩
  limits := { maxLimit := n }
  resources := [⟨"schema", "sqlite_schema", [("name", ⟨none, .text⟩)], none, none⟩]

/-- The table that lists what a database holds. -/
def schemaTable : Table :=
  ⟨"sqlite_schema", [("name", ⟨"name", .text⟩)], none⟩

/-- At the bound, the last page starts two before the end of the signed words; and one above it,
beyond them. -/
theorem windows_within_words_widest :
    (settingsUpTo 2147483649).accepted = true ∧
      (∃ r p, ListRequest.normalize (settingsUpTo 2147483649).limits r =
          .ok { page := 4294967295, limit := 2147483649 } ∧
        plan ⟨0, .utc⟩ (settingsUpTo 2147483649).limits schemaTable (.ofList ["name"])
          { page := 4294967295, limit := 2147483649 } = .ok p ∧
        p.offset = 9223372036854775806 ∧ p.offset < signedCount) ∧
    (settingsUpTo 2147483650).accepted = true ∧
      widestLimit < (settingsUpTo 2147483650).limits.maxLimit.toNat ∧
      visibleColumns schemaTable (.ofList ["name"]) ≠ [] ∧
      ∃ p, plan ⟨0, .utc⟩ (settingsUpTo 2147483650).limits schemaTable (.ofList ["name"])
          { page := 4294967295, limit := 2147483650 } = .ok p ∧ signedCount ≤ p.offset := by
  have h : (settingsUpTo 2147483649).accepted = true := by decide +kernel
  have ho : ListRequest.normalize (settingsUpTo 2147483649).limits
      { page := some (.int 4294967295), limit := some (.int 2147483649) } =
        .ok { page := 4294967295, limit := 2147483649 } := rfl
  have hp : plan ⟨0, .utc⟩ (settingsUpTo 2147483649).limits schemaTable (.ofList ["name"])
      { page := 4294967295, limit := 2147483649 } = .ok _ := rfl
  obtain ⟨-, -, -, hfits⟩ := (windows_within_words h).1 _ _ _ _ _ _ ho hp
  have h' : (settingsUpTo 2147483650).accepted = true := by decide +kernel
  have hwide : widestLimit < (settingsUpTo 2147483650).limits.maxLimit.toNat := by decide +kernel
  have hne : visibleColumns schemaTable (.ofList ["name"]) ≠ [] := List.cons_ne_nil _ _
  obtain ⟨-, hplans⟩ := (windows_within_words h').2 hwide
  exact ⟨h, ⟨_, _, ho, hp, by decide +kernel, hfits (by decide +kernel)⟩, h', hwide, hne,
    hplans _ _ _ hne⟩

/-- Where pages may be as large as a word of 32 bits allows, the last page starts beyond the signed
words, and the store fails. -/
theorem farthest_fails :
    (settingsUpTo 4294967295).accepted = true ∧
      ∃ o p, (ListRequest.farthest (settingsUpTo 4294967295).limits).normalize
          (settingsUpTo 4294967295).limits = .ok o ∧
        plan ⟨0, .utc⟩ (settingsUpTo 4294967295).limits schemaTable (.ofList ["name"]) o = .ok p ∧
        p.select.text .sqlite =
          "SELECT \"name\" FROM \"sqlite_schema\" LIMIT 4294967295 OFFSET 18446744060824649730" ∧
        ¬ p.offset < signedCount ∧
        (p.execute .empty).result =
          .error (.query (.store (.ofFault .sqlite .execution))) := by
  have ho : (ListRequest.farthest (settingsUpTo 4294967295).limits).normalize
      (settingsUpTo 4294967295).limits = .ok { page := 4294967295, limit := 4294967295 } := rfl
  have hp : plan ⟨0, .utc⟩ (settingsUpTo 4294967295).limits schemaTable (.ofList ["name"])
      { page := 4294967295, limit := 4294967295 } = .ok _ := rfl
  exact ⟨by decide +kernel, _, _, ho, hp, by decide +kernel, by decide +kernel, rfl⟩

end ResourceQuery
