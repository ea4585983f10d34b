import ResourceQuery.Proofs.Query.Compile
import ResourceQuery.Proofs.Time.Fixed
import ResourceQuery.Proofs.Time.Signed

/-!
# Query — relative ranges compared as texts

In a zone of one offset, on columns that hold instants as texts.

* `text_le_iff_of_range`: one end of a range is today, so it is known whether the texts of its two
  instants are in the order of time.
* `compile_relative`: what a relative range is compiled to.
* `relative_in_order_iff`: its ends are in order as texts too, unless the range goes beyond the year
  9999, or back from the year -1 into another one.
-/

namespace ResourceQuery

/-! ### The ends of a range -/

namespace Clock

variable {clock : Clock} {o : Int} {expr : String} {r : DateRange} {low high : Instant}

theorem range?_eq_some (h : clock.range? expr = some r) :
    ∃ span : Span, r = span.dates clock.today := by
  rw [range?] at h
  obtain ⟨span, -, hr⟩ := Option.bind_eq_some_iff.mp h
  rw [Span.anchor?_eq] at hr
  split at hr
  · exact ⟨span, (Option.some.inj hr).symm⟩
  · cases hr

/-- **The texts of a range whose one end is today**, in a year of four digits. -/
theorem text_le_iff_of_range (hzone : clock.zone = .fixed o) (behind : -daySeconds < o)
    (ahead : o < daySeconds) (h : 0 ≤ clock.today.year) (h' : clock.today.year ≤ 9999)
    (hr : clock.range? expr = some r) (hinstants : r.instants? clock.zone = some (low, high)) :
    (low = high ∨ low.before high = true) ∧
      (Text.bytes low.text ≤ Text.bytes high.text ↔ (Time.shownParts high).year ≤ 9999 ∧
        (0 ≤ (Time.shownParts high).year ∨
          (Time.shownParts low).year = (Time.shownParts high).year)) := by
  obtain ⟨span, rfl⟩ := range?_eq_some hr
  have hdays := span.dates_days clock.today
  rw [hzone] at hinstants
  obtain ⟨hlow, hhigh, horder⟩ := DateRange.instants?_fixed (by omega) hinstants
  have hyears : (Time.shownParts low).year ≤ (Time.shownParts high).year := by
    rcases horder with rfl | hbefore
    · exact Int.le_refl _
    · exact (Time.shownParts_before hlow hhigh hbefore).elim Int.le_of_lt fun h => Int.le_of_eq h.1
  have htoday := startOfDay?_fourDigits behind ahead h h'
  obtain ⟨hfirst, hlast⟩ := year_of_midnight behind ahead h h'
  obtain ⟨a, b, ha, hb, rfl, rfl⟩ := DateRange.instants?_eq_some_iff.mp hinstants
  refine ⟨horder, ?_⟩
  cases hdirection : span.direction with
  | last =>
      rw [Span.dates, hdirection] at hb
      cases hb.symm.trans htoday
      exact Time.text_le_iff hlow hhigh horder (Int.le_trans hyears hlast) hfirst
  | next =>
      rw [Span.dates, hdirection] at ha
      cases ha.symm.trans htoday
      exact Time.text_le_iff hlow hhigh horder hlast (Int.le_trans hfirst hyears)

end Clock

/-! ### What is bound -/

/-- On a column of texts or of instants, an instant is stored as its text. -/
theorem Condition.stored_bindInstant {type : ColumnType} {t : Instant} {x : SqlValue}
    (htype : type = .text ∨ type = .timestamp) (h : bindInstant type t = .ok x) :
    Stored.ofValue x = .text t.text := by
  rcases htype with rfl | rfl
  · cases h
    rfl
  · cases h
    rfl

/-- What a relative range on a visible field is compiled to. -/
theorem Condition.compile_relative {clock : Clock} {t : Table} {a : AllowList} {field expr : String}
    {col : Column} {r : DateRange} {low high : Instant} {x y : SqlValue}
    (visible : Visible t a field col) (hr : clock.range? expr = some r)
    (hinstants : r.instants? clock.zone = some (low, high)) (hx : bindInstant col.type low = .ok x)
    (hy : bindInstant col.type high = .ok y) :
    compile clock t a ⟨field, .relative, .scalar (.str expr)⟩ = .ok (some (.between col x y)) :=
  compile_eq_ok_iff.mpr ⟨col, visible, map_eq_ok_iff.mpr ⟨_,
    relative_eq_ok_iff.mpr ⟨expr, r, low, high, x, y, rfl, hr, hinstants, hx, hy, rfl⟩, rfl⟩⟩

/-- **Whether a relative range is in order as text.**  In a zone of one offset, less than a day, and
in a year of four digits, what a condition asks of a column of texts or of instants is to lie between
the two ends of its range.  These are in the order of time, and what they are stored as is in the
order of its bytes exactly if the later end is of a year up to 9999 in universal time, and one from
0 on or that of the earlier end. -/
theorem relative_in_order_iff {clock : Clock} {o : Int} {t : Table} {a : AllowList} {c : Condition}
    {col : Column} {p : Predicate} (hzone : clock.zone = .fixed o) (behind : -daySeconds < o)
    (ahead : o < daySeconds) (hyear : 0 ≤ clock.today.year) (hyear' : clock.today.year ≤ 9999)
    (hcol : resolve t a c.field = .ok col) (htype : col.type = .text ∨ col.type = .timestamp)
    (hop : c.operator = .relative) (h : c.compile clock t a = .ok (some p)) :
    ∃ expr r low high x y,
      c.value.first? = some (.str expr) ∧ clock.range? expr = some r ∧
      r.instants? clock.zone = some (low, high) ∧ p = .between col x y ∧
      Stored.ofValue x = .text low.text ∧ Stored.ofValue y = .text high.text ∧
      (low = high ∨ low.before high = true) ∧
      (Text.bytes low.text ≤ Text.bytes high.text ↔ (Time.shownParts high).year ≤ 9999 ∧
        (0 ≤ (Time.shownParts high).year ∨
          (Time.shownParts low).year = (Time.shownParts high).year)) := by
  obtain ⟨col', visible, hp⟩ := Condition.compile_eq_ok_iff.mp h
  obtain rfl : col = col' := Except.ok.inj (hcol.symm.trans (resolve_eq_ok_iff.mpr visible))
  rw [hop] at hp
  cases Condition.predicate_makes hp with
  | relative hrelative =>
      obtain ⟨expr, r, low, high, x, y, hfirst, hr, hinstants, hx, hy, rfl⟩ :=
        Condition.relative_eq_ok_iff.mp hrelative
      obtain ⟨horder, htexts⟩ :=
        Clock.text_le_iff_of_range hzone behind ahead hyear hyear' hr hinstants
      exact ⟨expr, r, low, high, x, y, hfirst, hr, hinstants, rfl,
        Condition.stored_bindInstant htype hx, Condition.stored_bindInstant htype hy, horder, htexts⟩

/-- A diary whose entries are due at texts and were made at instants. -/
def diary : Table where
  name := "diary"
  fields := [("due", ⟨"due", .text⟩), ("made", ⟨"made_at", .timestamp⟩)]
  deletedAt := none

/-- A range that goes back from 10 March 2024 to the year -714 is in order, as `-` comes before
every digit. -/
theorem relative_in_order_iff_negative :
    (Clock.mk 1710072000 (.fixed 19800)).today.year = 2024 ∧
      Condition.compile ⟨1710072000, .fixed 19800⟩ diary (.ofList ["made"])
          ⟨"made", .relative, .scalar (.str "last 1000000 days")⟩ =
        .ok (some (.between ⟨"made_at", .timestamp⟩ (.timestamp ⟨-84689991000, 0⟩)
          (.timestamp ⟨1710009000, 0⟩))) ∧
      Stored.ofValue (.timestamp ⟨-84689991000, 0⟩) = .text "-0714-04-12T18:30:00+00:00" ∧
      Stored.ofValue (.timestamp ⟨1710009000, 0⟩) = .text "2024-03-09T18:30:00+00:00" ∧
      Text.bytes "-0714-04-12T18:30:00+00:00" ≤ Text.bytes "2024-03-09T18:30:00+00:00" := by
  have hyear : (Clock.mk 1710072000 (.fixed 19800)).today.year = 2024 := by decide +kernel
  have hrange : (Clock.mk 1710072000 (.fixed 19800)).range? "last 1000000 days" =
      some ⟨⟨-980208⟩, ⟨19792⟩⟩ := by decide +kernel
  have hinstants : DateRange.instants? ⟨⟨-980208⟩, ⟨19792⟩⟩ (.fixed 19800) =
      some (⟨-84689991000, 0⟩, ⟨1710009000, 0⟩) := by decide +kernel
  have hlow : (Instant.mk (-84689991000) 0).text = "-0714-04-12T18:30:00+00:00" := by
    decide +kernel
  have hhigh : (Instant.mk 1710009000 0).text = "2024-03-09T18:30:00+00:00" := by decide +kernel
  have visible : Visible diary (.ofList ["made"]) "made" ⟨"made_at", .timestamp⟩ :=
    ⟨by decide, by decide⟩
  have hcompile := Condition.compile_relative visible hrange hinstants rfl rfl
  obtain ⟨_, _, low, high, _, _, hexpr, hr, hends, hp, hx, hy, -, htexts⟩ :=
    relative_in_order_iff rfl (by decide) (by decide) (by rw [hyear]; decide)
      (by rw [hyear]; decide) (resolve_eq_ok_iff.mpr visible) (.inr rfl) rfl hcompile
  cases hexpr
  cases hrange.symm.trans hr
  cases hinstants.symm.trans hends
  cases hp
  rw [hlow] at hx htexts
  rw [hhigh] at hy htexts
  exact ⟨hyear, hcompile, hx, hy, htexts.mpr ⟨by decide +kernel, .inl (by decide +kernel)⟩⟩

/-- A range that goes on from 10 March 2024 beyond the year 9999 is inverted, as `+` comes before
every digit. -/
theorem relative_inverted_late :
    (Clock.mk 1710072000 (.fixed 0)).today.year = 2024 ∧
      Condition.compile ⟨1710072000, .fixed 0⟩ diary (.ofList ["due"])
          ⟨"due", .relative, .scalar (.str "next 2920000 days")⟩ =
        .ok (some (.between ⟨"due", .text⟩ (.text "2024-03-10T00:00:00+00:00")
          (.text "+10018-11-17T00:00:00+00:00"))) ∧
      ¬ Text.bytes "2024-03-10T00:00:00+00:00" ≤ Text.bytes "+10018-11-17T00:00:00+00:00" := by
  have hrange : (Clock.mk 1710072000 (.fixed 0)).range? "next 2920000 days" =
      some ⟨⟨19792⟩, ⟨2939792⟩⟩ := by decide +kernel
  have hinstants : DateRange.instants? ⟨⟨19792⟩, ⟨2939792⟩⟩ (.fixed 0) =
      some (⟨1710028800, 0⟩, ⟨253998028800, 0⟩) := by decide +kernel
  have hlow : (Instant.mk 1710028800 0).text = "2024-03-10T00:00:00+00:00" := by decide +kernel
  have hhigh : (Instant.mk 253998028800 0).text = "+10018-11-17T00:00:00+00:00" := by
    decide +kernel
  have visible : Visible diary (.ofList ["due"]) "due" ⟨"due", .text⟩ := ⟨by decide, by decide⟩
  refine ⟨by decide +kernel, ?_, by decide +kernel⟩
  rw [← hlow, ← hhigh]
  exact Condition.compile_relative visible hrange hinstants rfl rfl

end ResourceQuery
