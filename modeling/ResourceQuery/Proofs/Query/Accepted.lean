import ResourceQuery.Proofs.Config.Settings
import ResourceQuery.Proofs.Query.Failure
import ResourceQuery.Proofs.Query.Options
import ResourceQuery.Proofs.Query.Pages

/-!
# Query — requests under accepted settings

* `Planned.limit_eq`, `Planned.page_eq`: a size within the bounds is the size of the page planned, and
  a page that is there is the page planned.
* `Plan.pagination_execute`: the page and size that are told are those of the plan.
* `accepted_plans`: so under settings that are accepted every request is paged as it is told, and
  none meets bounds that are out of order.
-/

namespace ResourceQuery

variable {clock : Clock} {l : Limits} {t : Table} {a : AllowList} {o : QueryOptions} {p : Plan}

/-- A size within the bounds is the size of the page planned. -/
theorem Planned.limit_eq (hp : Planned clock l t a o p) (hlow : l.minLimit ≤ o.limit)
    (hhigh : o.limit ≤ l.maxLimit) : p.limit = o.limit := by
  have hlimit := hp.limit
  rw [Limits.clamp?_of_within hlow hhigh] at hlimit
  exact (Option.some.inj hlimit).symm

/-- A page that is there is the page planned. -/
theorem Planned.page_eq (hp : Planned clock l t a o p) (h : 1 ≤ o.page) : p.page = o.page := by
  rw [hp.page, ← UInt32.toNat_inj, UInt32.toNat_max]
  exact Nat.max_eq_left (UInt32.le_iff_toNat_le.mp h)

/-- The page and size that are told are those of the plan. -/
theorem Plan.pagination_execute {store : Store} {page : ResultPage}
    (h : (p.execute store).result = .ok page) :
    page.pagination.page = p.page ∧ page.pagination.limit = p.limit := by
  have hanswered := p.execute_answered store
  generalize p.execute store = outcome at h hanswered
  cases hanswered with
  | noRows rows => cases h
  | noCount rows count => cases h
  | found rows count =>
      cases h
      exact ⟨rfl, rfl⟩

theorem Refusal.OfClient.ne_invertedBounds {x : Refusal} (h : x.OfClient) (low high : UInt32) :
    x ≠ .invertedBounds low high := by
  rintro rfl
  cases h

/-- **Accepted settings make planning safe.**  Their resources have tables.  No request meets bounds
that are out of order, neither when it is normalized nor when it is planned; one that is normalized
has a positive page and a size within the bounds, and these are the page and the size of its plan,
of the window in its statement, exact in words of 64 bits, and of the pagination that is told. -/
theorem accepted_plans {s : Settings} (h : s.accepted = true) :
    (∀ r ∈ s.resources, ∃ t, r.build = .ok t) ∧
    ∀ r : ListRequest,
      (∀ low high, r.normalize s.limits ≠ .error (.invertedBounds low high)) ∧
      ∀ o, r.normalize s.limits = .ok o →
        1 ≤ o.page ∧ s.limits.minLimit ≤ o.limit ∧ o.limit ≤ s.limits.maxLimit ∧
        ∀ clock t a,
          (∀ low high, plan clock s.limits t a o ≠ .error (.invertedBounds low high)) ∧
          ∀ p, plan clock s.limits t a o = .ok p →
            p.page = o.page ∧ p.limit = o.limit ∧
            (∀ b, ∃ front, p.select.text b =
              front ++ " LIMIT " ++ toString o.limit.toNat ++
                " OFFSET " ++ toString ((o.page.toNat - 1) * o.limit.toNat)) ∧
            ((o.page - 1).toUInt64 * o.limit.toUInt64).toNat =
              (o.page.toNat - 1) * o.limit.toNat ∧
            ∀ store page, (p.execute store).result = .ok page →
              page.pagination.page = o.page ∧ page.pagination.limit = o.limit := by
  have hsound := Settings.accepted_iff.mp h
  have hlimits := hsound.limits
  have hordered : s.limits.ordered = true := decide_eq_true hlimits.ordered
  refine ⟨fun r hr => (hsound.resources r hr).table, fun r => ⟨fun low high hx => ?_, ?_⟩⟩
  · exact (r.normalize_ofClient hordered _ hx).ne_invertedBounds low high rfl
  intro o ho
  have hnormal := ListRequest.normalize_eq_ok_iff.mp ho
  have hpage : 1 ≤ o.page := hnormal.page ▸ r.one_le_pageNumber
  obtain ⟨hlow, hhigh⟩ :=
    ListRequest.pageSize_within hlimits.default_low hlimits.default_high hnormal.limit
  refine ⟨hpage, hlow, hhigh, fun clock t a => ⟨fun low high hx => ?_, fun p hp => ?_⟩⟩
  · exact (plan_ofClient clock t a o hordered _ hx).ne_invertedBounds low high rfl
  have hplanned := plan_eq_ok_iff.mp hp
  have hp_page := hplanned.page_eq hpage
  have hp_limit := hplanned.limit_eq hlow hhigh
  have hoffset : p.offset = (o.page.toNat - 1) * o.limit.toNat := by
    rw [Plan.offset, hp_page, hp_limit]
  have hword := Plan.offset_eq_word (p := p) (hp_page ▸ UInt32.le_iff_toNat_le.mp hpage)
  rw [hoffset, hp_page, hp_limit] at hword
  refine ⟨hp_page, hp_limit, fun b => ?_, hword, fun store page hpage => ?_⟩
  · refine ⟨Piece.text b (p.heading ++ p.source) ++ Plan.orderText p.order, ?_⟩
    rw [Plan.text_select, Plan.windowText, hp_limit, hoffset]
    simp only [String.append_assoc]
  · rw [← hp_page, ← hp_limit]
    exact Plan.pagination_execute hpage

/-- Settings with one resource, whose pages hold 10 to 50 people. -/
def peopleSettings : Settings where
  database := ⟨.sqlite, "sqlite://people.db", 10, 30⟩
  limits := { minLimit := 10, defaultLimit := 25, maxLimit := 50 }
  resources := [⟨"people", "people", [("name", ⟨some "full_name", .text⟩)], none, none⟩]

/-- A page of as many people as there are is one of 50. -/
theorem accepted_plans_people :
    peopleSettings.accepted = true ∧
      ListRequest.normalize peopleSettings.limits
        { page := some (.str "3"), limit := some (.int 100000000000) } =
          .ok { page := 3, limit := 50 } ∧
      ∃ p, plan ⟨0, .utc⟩ peopleSettings.limits people peopleAllowed { page := 3, limit := 50 } =
          .ok p ∧
        p.page = 3 ∧ p.limit = 50 ∧ p.offset = 100 := by
  have h : peopleSettings.accepted = true := by decide +kernel
  have ho : ListRequest.normalize peopleSettings.limits
      { page := some (.str "3"), limit := some (.int 100000000000) } =
        .ok { page := 3, limit := 50 } := rfl
  have hp : plan ⟨0, .utc⟩ peopleSettings.limits people peopleAllowed
      { page := 3, limit := 50 } = .ok _ := rfl
  obtain ⟨-, hserved⟩ := accepted_plans h
  obtain ⟨-, -, -, hplanned⟩ := (hserved _).2 _ ho
  obtain ⟨hpage, hlimit, -⟩ := (hplanned ⟨0, .utc⟩ people peopleAllowed).2 _ hp
  exact ⟨h, ho, _, hp, hpage, hlimit, by decide +kernel⟩

end ResourceQuery
