import ResourceQuery.Proofs.Filter.Stringified
import ResourceQuery.Proofs.Query.Options
import ResourceQuery.Proofs.Text.Item

/-!
# Query — the page and its size as text

A document gives the page and its size as numbers, a query string as the digits of numbers, with
white space around them or none.

* `Text.Trims.items`: such a text is a list of one item, the digits.
* `positive?_of_trims`: it counts as its number, if a signed word of 64 bits holds that, and as no
  number at all if not.
* `positive?_maxWord`: a number, for its part, counts as the largest page from there on.  Requests
  have integers below `2⁶⁴`, and this is said of all.
* `paged_as_text`: so a request comes to the same either way exactly below that bound.
-/

namespace ResourceQuery

/-- A text that is trimmed to something without a comma has that as its only item. -/
theorem Text.Trims.items {s : String} {ds : List Char} (trims : Trims s.toList ds)
    (nonempty : ds ≠ []) (whole : ',' ∉ ds) : items s = [String.ofList ds] := by
  have hcomma : ',' ∉ s.toList := by
    generalize s.toList = cs at trims
    obtain ⟨blankBefore, blankAfter, -⟩ := trims
    simp [blankBefore.comma_not_mem, blankAfter.comma_not_mem, whole]
  rw [← String.toList_ofList (l := ds)] at trims
  exact lists_iff.mp (.last hcomma (.item trims (by rwa [String.toList_ofList])))

/-- The digits of a number are read as an integer, if a signed word of 64 bits holds it. -/
theorem Scalar.ofText_toString {n : Nat} (h : n < signedCount) :
    ofText (toString n) = .int n (toString n) := by
  refine ofText_intText (n := n) ?_
  rw [Text.fitsSigned, Bool.and_eq_true, decide_eq_true_eq, decide_eq_true_eq]
  omega

/-- And as no integer, if none holds it. -/
theorem Scalar.ofText_toString_ne {n : Nat} (h : signedCount ≤ n) (i : Int) (raw : String) :
    ofText (toString n) ≠ .int i raw := by
  have hread : ∀ {t : String}, ofText t = .int i raw → ∃ negative m,
      Numeral t.toList negative m 0 ∧ Text.fitsSigned (Numeral.signed negative m) = true := by
    intro t ht
    cases ofText_eq_iff.mp ht with
    | int numeral fits => exact ⟨_, _, numeral, fits⟩
  intro hint
  obtain ⟨negative, m, numeral, fits⟩ := hread hint
  obtain ⟨hsign, hm, -⟩ := numeral_unique (numeral_intText n) numeral
  rw [hsign, hm, signed_natAbs, Text.fitsSigned, Bool.and_eq_true, decide_eq_true_eq,
    decide_eq_true_eq] at fits
  omega

namespace ListRequest

variable {n : Nat} {s : String}

/-- **What the digits of a number count as.** -/
theorem positive?_of_trims (writes : Text.Trims s.toList (toString n).toList) :
    positive? (.str s) = if n < signedCount then positive? (.int n) else none := by
  have hdigits := Scalar.digits_toString n
  have hcomma : ',' ∉ (toString n).toList :=
    Scalar.comma_not_mem_of_numeral (Scalar.numeral_intText n)
  have hitems : Value.ofItems s = [Scalar.ofText (toString n)] := by
    rw [Value.ofItems, writes.items hdigits.1 hcomma, String.ofList_toList]
    rfl
  split
  · rename_i hfits
    simp only [positive?, hitems, Scalar.ofText_toString hfits]
  · rename_i hlarge
    have hread := Scalar.ofText_toString_ne (Nat.not_lt.mp hlarge)
    simp only [positive?, hitems]
    cases hx : Scalar.ofText (toString n) with
    | int i raw => exact absurd hx (hread i raw)
    | null | str _ | float _ _ | bool _ _ => rfl

/-- **A number that is larger than any page counts as the largest one.** -/
theorem positive?_maxWord (h : maxWord ≤ n) : positive? (.int n) = positive? (.int maxWord) := by
  have hpositive : 0 < (n : Int) := by
    have hone : 1 ≤ maxWord := by decide
    omega
  simp only [positive?, hpositive, if_true, Int.toNat_natCast, Nat.min_eq_right h]
  rfl

variable {l : Limits} {r : ListRequest}

/-- Requests whose pages and sizes count as the same numbers come to the same. -/
theorem normalize_congr {page page' limit limit' : Option Json}
    (hpage : page.bind positive? = page'.bind positive?)
    (hlimit : limit.bind positive? = limit'.bind positive?) :
    normalize l { r with page := page, limit := limit } =
      normalize l { r with page := page', limit := limit' } := by
  have hpage' : pageNumber { r with page := page, limit := limit } =
      pageNumber { r with page := page', limit := limit' } :=
    congrArg (Option.getD · 1) hpage
  have hlimit' : pageSize l { r with page := page, limit := limit } =
      pageSize l { r with page := page', limit := limit' } := by
    rw [pageSize, pageSize, hlimit]
  rw [normalize, normalize, hpage', hlimit']
  rfl

end ListRequest

open ListRequest in
/-- **Below `2⁶³` a page and a size mean the same as number and as text.**  From there on, a number
counts as the largest page or size there is, while its digits count as none: the page is the first,
and the size the default one.  The number is taken as an integer document whatever its size; in a
request it is one below `2⁶⁴` only (`Json.int`). -/
theorem paged_as_text (l : Limits) (r : ListRequest) {n : Nat} {s : String}
    (writes : Text.Trims s.toList (toString n).toList) :
    (n < signedCount →
      normalize l { r with page := some (.str s) } =
        normalize l { r with page := some (.int n) } ∧
      normalize l { r with limit := some (.str s) } =
        normalize l { r with limit := some (.int n) }) ∧
    (signedCount ≤ n →
      normalize l { r with page := some (.str s) } = normalize l { r with page := none } ∧
      normalize l { r with limit := some (.str s) } = normalize l { r with limit := none } ∧
      normalize l { r with page := some (.int n) } =
        normalize l { r with page := some (.int maxWord) } ∧
      normalize l { r with limit := some (.int n) } =
        normalize l { r with limit := some (.int maxWord) }) := by
  have htext := positive?_of_trims writes
  refine ⟨fun hfits => ?_, fun hlarge => ?_⟩
  · rw [if_pos hfits] at htext
    exact ⟨normalize_congr htext rfl, normalize_congr rfl htext⟩
  · rw [if_neg (Nat.not_lt.mpr hlarge)] at htext
    have hnumber : positive? (.int n) = positive? (.int maxWord) :=
      positive?_maxWord (Nat.le_trans (by decide) hlarge)
    exact ⟨normalize_congr htext rfl, normalize_congr rfl htext, normalize_congr hnumber rfl,
      normalize_congr rfl hnumber⟩

/-- The digits of the largest signed word, with white space around them. -/
theorem paged_as_text_largestSigned :
    Text.Trims " 9223372036854775807\u3000".toList (toString 9223372036854775807).toList ∧
      9223372036854775807 < signedCount ∧
      ListRequest.normalize {} { page := some (.str " 9223372036854775807\u3000") } =
        ListRequest.normalize {} { page := some (.int 9223372036854775807) } ∧
      ListRequest.normalize {} { page := some (.int 9223372036854775807) } =
        .ok { page := 4294967295 } := by
  have writes : Text.Trims " 9223372036854775807\u3000".toList
      (toString 9223372036854775807).toList := Text.trimChars_eq_iff.mp (by decide +kernel)
  have fits : 9223372036854775807 < signedCount := by decide
  exact ⟨writes, fits, ((paged_as_text {} {} writes).1 fits).1, rfl⟩

/-- A request for the page and the size that a document gives. -/
def ListRequest.both (j : Json) : ListRequest where
  page := some j
  limit := some j

/-- The next number is the largest page and size there are, and its digits are none. -/
theorem firstUnsigned_apart :
    Text.Trims "9223372036854775808".toList (toString 9223372036854775808).toList ∧
      9223372036854775808 < longCount ∧
      ListRequest.normalize {} (.both (.int 9223372036854775808)) =
        .ok { page := 4294967295, limit := 100 } ∧
      ListRequest.normalize {} (.both (.str "9223372036854775808")) =
        .ok { page := 1, limit := 20 } := by
  exact ⟨Text.trimChars_eq_iff.mp (by decide +kernel), by decide, rfl, rfl⟩

end ResourceQuery
