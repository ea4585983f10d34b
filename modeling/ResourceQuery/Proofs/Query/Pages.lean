import Mathlib.Algebra.Order.Floor.Div
import ResourceQuery.Proofs.Query.Plan
import ResourceQuery.Query.Page

/-!
# Query — pages tile the result

The rows a request selects are cut into pages by the windows its plans write.

* `Plan.offset_eq_word`: where a window starts is computed without overflow in words of 64 bits.
* `Planned.turned`: a request is planned for another page to the same plan but for the window.
* `Pagination.totalPages_le_iff`: the number of pages is the least that has room for all rows.
* `pages_tile`: so each row is on exactly one of the pages counted, each of these has a row, and the
  pages after them have none.
-/

namespace ResourceQuery

/-! ### Windows -/

namespace Plan

/-- The plan of another page. -/
def turnedTo (p : Plan) (page : UInt32) : Plan :=
  { p with page := page }

/-- The row of number `i`, from 0, is in the window. -/
def Holds (p : Plan) (i : Nat) : Prop :=
  p.offset ≤ i ∧ i < p.offset + p.limit.toNat

/-- **The start of a window is exact in words of 64 bits.** -/
theorem offset_eq_word {p : Plan} (h : 1 ≤ p.page.toNat) :
    ((p.page - 1).toUInt64 * p.limit.toUInt64).toNat = p.offset := by
  have hpage : (p.page - 1).toNat = p.page.toNat - 1 :=
    UInt32.toNat_sub_of_le _ _ (UInt32.le_iff_toNat_le.mpr h)
  have hpage' := p.page.toNat_lt
  have hlimit := p.limit.toNat_lt
  have hproduct : (p.page.toNat - 1) * p.limit.toNat < 2 ^ 64 := by
    calc (p.page.toNat - 1) * p.limit.toNat
        ≤ (2 ^ 32 - 1) * (2 ^ 32 - 1) := Nat.mul_le_mul (by omega) (by omega)
      _ < 2 ^ 64 := by decide
  rw [UInt64.toNat_mul, UInt32.toNat_toUInt64, UInt32.toNat_toUInt64, hpage, offset]
  exact Nat.mod_eq_of_lt hproduct

/-- The windows of all pages stand after the same text. -/
theorem text_select_turnedTo (p : Plan) (b : Backend) :
    ∃ front, ∀ page, (p.turnedTo page).select.text b =
      front ++ " LIMIT " ++ toString p.limit.toNat ++
        " OFFSET " ++ toString (p.turnedTo page).offset := by
  refine ⟨Piece.text b (p.heading ++ p.source) ++ orderText p.order, fun page => ?_⟩
  rw [text_select, windowText]
  simp only [String.append_assoc]
  rfl

/-- **A row is on the page that as many full pages come before as fit before the row.** -/
theorem holds_turnedTo_iff {p : Plan} (hlimit : 1 ≤ p.limit.toNat) {page : UInt32}
    (hpage : 1 ≤ page.toNat) {i : Nat} :
    (p.turnedTo page).Holds i ↔ i / p.limit.toNat + 1 = page.toNat := by
  have hoffset : (p.turnedTo page).offset = (page.toNat - 1) * p.limit.toNat := rfl
  have hdiv : i / p.limit.toNat = page.toNat - 1 ↔ _ := Nat.div_eq_iff hlimit
  rw [Holds, hoffset]
  show _ ∧ i < (page.toNat - 1) * p.limit.toNat + p.limit.toNat ↔ _
  omega

end Plan

variable {clock : Clock} {l : Limits} {t : Table} {a : AllowList} {o : QueryOptions} {p : Plan}

/-- A request for another page is planned to the plan of that page. -/
theorem Planned.turned (hp : Planned clock l t a o p) {page : UInt32} (hpage : 1 ≤ page.toNat) :
    Planned clock l t a { o with page := page } (p.turnedTo page) where
  table := hp.table
  conditions := hp.conditions
  columns := hp.columns
  visible := hp.visible
  asked := hp.asked
  order := hp.order
  page := by
    rw [← UInt32.toNat_inj, UInt32.toNat_max]
    exact (Nat.max_eq_left hpage).symm
  limit := hp.limit

/-! ### The number of pages -/

/-- **The number of pages is the least that has room for all rows.** -/
theorem Pagination.totalPages_le_iff {g : Pagination} (h : 1 ≤ g.limit.toNat) {k : Nat} :
    g.totalPages ≤ k ↔ g.total.toNat ≤ k * g.limit.toNat := by
  have hsize : max 1 g.limit.toNat = g.limit.toNat := max_eq_right h
  have hceil : g.totalPages = g.total.toNat ⌈/⌉ g.limit.toNat := by
    rw [totalPages, hsize, Nat.ceilDiv_eq_add_pred_div, Nat.add_sub_assoc h]
  rw [hceil, ceilDiv_le_iff_le_mul h, Nat.mul_comm]

/-- The first `pages` pages of a plan tile `total` rows: each row is on one of them, each of them
has a row, and the pages after them start behind the last row. -/
structure Plan.Tiles (p : Plan) (total pages : Nat) : Prop where
  covers : ∀ i < total, ∃! page : UInt32,
    (1 ≤ page.toNat ∧ page.toNat ≤ pages) ∧ (p.turnedTo page).Holds i
  reaches : ∀ page : UInt32, 1 ≤ page.toNat → page.toNat ≤ pages →
    ∃ i < total, (p.turnedTo page).Holds i
  beyond : ∀ page : UInt32, pages < page.toNat → total ≤ (p.turnedTo page).offset

/-- **The pages counted tile the rows.** -/
theorem Plan.tiles {p : Plan} (hlimit : 1 ≤ p.limit.toNat) {current : UInt32} {total : UInt64}
    (hfew : (Pagination.mk current p.limit total).totalPages < wordCount) :
    p.Tiles total.toNat (Pagination.mk current p.limit total).totalPages := by
  have hcount : ∀ k, (Pagination.mk current p.limit total).totalPages ≤ k ↔
      total.toNat ≤ k * p.limit.toNat := fun _ => Pagination.totalPages_le_iff hlimit
  generalize (Pagination.mk current p.limit total).totalPages = pages at hfew hcount ⊢
  refine ⟨fun i hi => ?_, fun page hpage hpages => ?_, fun page hpages => ?_⟩
  · -- the row is not beyond the pages, so its page is one of them
    have hlast : i / p.limit.toNat < pages := by
      rw [← Nat.not_le, hcount, Nat.not_le]
      exact Nat.lt_of_le_of_lt (Nat.div_mul_le_self i _) hi
    have hword : (UInt32.ofNat (i / p.limit.toNat + 1)).toNat = i / p.limit.toNat + 1 :=
      UInt32.toNat_ofNat_of_lt' (Nat.lt_of_le_of_lt hlast hfew)
    refine ⟨UInt32.ofNat (i / p.limit.toNat + 1), ⟨⟨?_, ?_⟩, ?_⟩, ?_⟩
    · rw [hword]
      exact Nat.succ_pos _
    · rw [hword]
      exact hlast
    · exact (holds_turnedTo_iff hlimit (by rw [hword]; exact Nat.succ_pos _)).mpr hword.symm
    · rintro page ⟨⟨hpage, -⟩, hholds⟩
      rw [← UInt32.toNat_inj, hword]
      exact ((holds_turnedTo_iff hlimit hpage).mp hholds).symm
  · -- the pages before this one do not have room for all rows, so its first row is there
    refine ⟨(page.toNat - 1) * p.limit.toNat, ?_, ?_⟩
    · rw [← Nat.not_le, ← hcount]
      omega
    · rw [holds_turnedTo_iff hlimit hpage, Nat.mul_div_cancel _ hlimit]
      exact Nat.sub_add_cancel hpage
  · exact (hcount _).mp (Nat.le_sub_one_of_lt hpages)

/-- **The pages of a request tile the rows it selects.**  Whatever page a request was planned for,
any other one is planned too, and its window, exact in words of 64 bits, stands in the same text. -/
theorem pages_tile (h : plan clock l t a o = .ok p) (hlimit : 1 ≤ p.limit.toNat)
    (current : UInt32) (total : UInt64) :
    (∀ page : UInt32, 1 ≤ page.toNat →
      plan clock l t a { o with page := page } = .ok (p.turnedTo page)) ∧
    (∀ b, ∃ front, ∀ page, (p.turnedTo page).select.text b =
      front ++ " LIMIT " ++ toString p.limit.toNat ++
        " OFFSET " ++ toString (p.turnedTo page).offset) ∧
    (∀ q : Plan, 1 ≤ q.page.toNat →
      q.offset = (q.page.toNat - 1) * q.limit.toNat ∧
        ((q.page - 1).toUInt64 * q.limit.toUInt64).toNat = q.offset) ∧
    ((Pagination.mk current p.limit total).totalPages < wordCount →
      p.Tiles total.toNat (Pagination.mk current p.limit total).totalPages) ∧
    ((Pagination.mk current p.limit total).totalPages = 0 ↔ total = 0) := by
  have hp := plan_eq_ok_iff.mp h
  refine ⟨fun page hpage => plan_eq_ok_iff.mpr (hp.turned hpage), p.text_select_turnedTo,
    fun q hq => ⟨rfl, Plan.offset_eq_word hq⟩, Plan.tiles hlimit, ?_⟩
  have hnone : (Pagination.mk current p.limit total).totalPages ≤ 0 ↔ _ :=
    Pagination.totalPages_le_iff hlimit
  rw [Nat.zero_mul, Nat.le_zero, Nat.le_zero] at hnone
  rw [hnone, ← UInt64.toNat_inj]
  rfl

/-- 41 people on pages of 20: two full pages, and one row on a third. -/
theorem pages_tile_people :
    ∃ p, plan ⟨0, .utc⟩ {} people peopleAllowed grownUps = .ok p ∧ p.limit = 20 ∧
      plan ⟨0, .utc⟩ {} people peopleAllowed { grownUps with page := 3 } = .ok (p.turnedTo 3) ∧
      p.Tiles 41 3 := by
  have h : plan ⟨0, .utc⟩ {} people peopleAllowed grownUps = .ok _ := rfl
  obtain ⟨hpages, -, -, htiles, -⟩ := pages_tile h (by decide) 1 41
  exact ⟨_, h, rfl, hpages 3 (by decide), htiles (by decide)⟩

end ResourceQuery
