import Mathlib.Data.List.TakeWhile
import ResourceQuery.Cli.Invocation
import ResourceQuery.Proofs.Json.RoundTrip
import ResourceQuery.Proofs.Query.Options
import ResourceQuery.Query.Session

/-!
# Query — a filter given as text

A filter comes in as an object or as the text of one.

* `Filter.parse_compact`: a text within the limits is parsed to the filter it was written for.
* `filterDocument_compact`: so a request asks for the same filter in either form.
* `filter_text_agrees`: it is normalized, planned and served alike.
-/

namespace ResourceQuery

/-- Something is left of a text that starts with no white space. -/
theorem Text.isEmpty_trim {s : String} {c : Char} {cs : List Char} (hs : s.toList = c :: cs)
    (hc : isBlank c = false) : (trim s).isEmpty = false := by
  have hstart : dropBlanks (c :: cs) = c :: cs := by simp [dropBlanks, hc]
  have hend : dropBlanks (c :: cs).reverse ≠ [] := by
    intro hnil
    have hblank := List.dropWhile_eq_nil_iff.mp hnil c (by simp)
    rw [hc] at hblank
    cases hblank
  rw [trim, trimChars, hs, hstart]
  simpa using hend

/-- The request with a filter. -/
def ListRequest.withFilter (r : ListRequest) (j : Json) : ListRequest :=
  { r with filter := some j }

variable {l : Limits} {ms : List (String × Json)}

/-- A text within the limits is parsed to the filter it was written for. -/
theorem Filter.parse_compact {j : Json} (hplain : j.Plain Json.maxDepth)
    (hsize : j.compact.utf8ByteSize ≤ l.maxFilterBytes) : Filter.parse l j.compact = .ok j := by
  rw [Filter.parse, if_neg (Nat.not_lt.mpr hsize), hplain.parse?_compact]

/-- A filter is the same in either form. -/
theorem ListRequest.filterDocument_compact (hplain : (Json.obj ms).Plain Json.maxDepth)
    (hsize : (Json.obj ms).compact.utf8ByteSize ≤ l.maxFilterBytes) (r : ListRequest) :
    (r.withFilter (.str (Json.obj ms).compact)).filterDocument l = .ok (some (.obj ms)) := by
  have htext : (Json.obj ms).compact.toList = '{' :: (Json.charsMembers ms ++ ['}']) := by
    simp [Json.compact, Json.chars]
  have hnonempty := Text.isEmpty_trim htext (by decide)
  simp only [ListRequest.filterDocument, ListRequest.withFilter, hnonempty,
    Filter.parse_compact hplain hsize]
  rfl

/-- **A filter means the same as an object and as the text of one.**  Whatever else a request asks
for, it is normalized to the same options, which have the filter with its members in their order, or
refused with the same error; so it is planned to the same statements and served alike.  A query from
a command line, which has no other form than the text, is one such request. -/
theorem filter_text_agrees (l : Limits) (ms : List (String × Json))
    (hplain : (Json.obj ms).Plain Json.maxDepth)
    (hsize : (Json.obj ms).compact.utf8ByteSize ≤ l.maxFilterBytes) :
    (∀ r : ListRequest,
      (r.withFilter (.str (Json.obj ms).compact)).normalize l =
        (r.withFilter (.obj ms)).normalize l ∧
      (∀ o, (r.withFilter (.str (Json.obj ms).compact)).normalize l = .ok o →
        o.filter = some (.obj ms)) ∧
      ∀ clock t a,
        ((r.withFilter (.str (Json.obj ms).compact)).normalize l >>= plan clock l t a) =
          ((r.withFilter (.obj ms)).normalize l >>= plan clock l t a) ∧
        ∀ store,
          Engine.serve ⟨clock, l, t⟩ store a (r.withFilter (.str (Json.obj ms).compact)) =
            Engine.serve ⟨clock, l, t⟩ store a (r.withFilter (.obj ms))) ∧
    ∀ q : Cli.QueryArgs, q.filter = some (Json.obj ms).compact →
      q.request.normalize l = (q.request.withFilter (.obj ms)).normalize l := by
  have hsame (r : ListRequest) : (r.withFilter (.str (Json.obj ms).compact)).normalize l =
      (r.withFilter (.obj ms)).normalize l := by
    have htext := r.filterDocument_compact hplain hsize
    have hobject : (r.withFilter (.obj ms)).filterDocument l = .ok (some (.obj ms)) := rfl
    rw [ListRequest.normalize, ListRequest.normalize, htext, hobject]
    rfl
  refine ⟨fun r => ⟨hsame r, fun o ho => ?_, fun clock t a => ⟨?_, fun store => ?_⟩⟩, fun q hq => ?_⟩
  · have hfilter := (ListRequest.normalize_eq_ok_iff.mp ho).filter
    rw [r.filterDocument_compact hplain hsize] at hfilter
    exact (Except.ok.inj hfilter).symm
  · rw [hsame r]
  · rw [Engine.serve, Engine.serve, hsame r]
  · rw [← hsame q.request]
    have hrequest : q.request = q.request.withFilter (.str (Json.obj ms).compact) := by
      rw [Cli.QueryArgs.request, hq]
      rfl
    rw [← hrequest]

/-- A filter whose text has escapes, an array in an array and the largest and smallest integer. -/
def escapedFilter : List (String × Json) :=
  [("full_name", .obj [("in", .arr [.str "O\"Neil\\\n\u0001é", .arr [.null, .bool true]])]),
    ("age", .obj [("lt", .int 18446744073709551615), ("gte", .int (-9223372036854775808))])]

theorem escapedFilter_plain : (Json.obj escapedFilter).Plain Json.maxDepth := by
  refine .obj (by decide) ?_
  intro m hm
  rcases List.mem_pair.mp hm with rfl | rfl
  · refine .obj (by decide) ?_
    intro m hm
    rw [List.mem_singleton.mp hm]
    refine .arr ?_
    intro j hj
    rcases List.mem_pair.mp hj with rfl | rfl
    · exact .str _ _
    · refine .arr ?_
      intro j hj
      rcases List.mem_pair.mp hj with rfl | rfl
      · exact .null _
      · exact .bool _ _
  · refine .obj (by decide) ?_
    intro m hm
    rcases List.mem_pair.mp hm with rfl | rfl
    · exact .int _ (.inr (by decide))
    · exact .int _ (.inl (by decide))

/-- That filter is the one asked for when its text is given. -/
theorem filter_text_agrees_escaped :
    (Json.obj escapedFilter).Plain Json.maxDepth ∧
      (Json.obj escapedFilter).compact.utf8ByteSize ≤ ({} : Limits).maxFilterBytes ∧
      (ListRequest.withFilter {} (.str (Json.obj escapedFilter).compact)).normalize {} =
        .ok { filter := some (.obj escapedFilter) } := by
  have hsize : (Json.obj escapedFilter).compact.utf8ByteSize ≤ ({} : Limits).maxFilterBytes := by
    decide +kernel
  obtain ⟨hsame, -⟩ := filter_text_agrees {} escapedFilter escapedFilter_plain hsize
  refine ⟨escapedFilter_plain, hsize, ?_⟩
  rw [(hsame {}).1]
  rfl

end ResourceQuery
