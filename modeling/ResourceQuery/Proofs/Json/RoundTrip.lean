import ResourceQuery.Json.Parser
import ResourceQuery.Proofs.Json.Token

/-!
# Json — documents written and read back

* `Plain`: the documents of which the compact text keeps everything.
* `Plain.readBack`: the text of a plain document is read as the document, and the reading stops where
  the text does, whatever ends it there.
* `Plain.parse?_compact`: so the whole text is parsed to the document, with its members in the order
  in which they were.

A reading spends one unit of its search on each value, element and member.  Each of them has a
character of its own, so the length of the text is enough.
-/

namespace ResourceQuery.Json

variable {fuel depth : Nat} {rest : List Char}

/-- The documents that a text keeps: without doubles, with integers of 64 bits and distinct keys in
every object, and at most `depth` arrays and objects inside one another. -/
inductive Plain : Nat → Json → Prop where
  | null (depth : Nat) : Plain depth .null
  | bool (depth : Nat) (b : Bool) : Plain depth (.bool b)
  | int (depth : Nat) {n : Int} (word : IsWord n) : Plain depth (.int n)
  | str (depth : Nat) (s : String) : Plain depth (.str s)
  | arr {depth : Nat} {items : List Json} (values : ∀ j ∈ items, Plain depth j) :
      Plain (depth + 1) (.arr items)
  | obj {depth : Nat} {ms : List (String × Json)} (keys : (ms.map Prod.fst).Nodup)
      (values : ∀ m ∈ ms, Plain depth m.2) : Plain (depth + 1) (.obj ms)

theorem skipSpace_cons {c : Char} (h : isSpace c = false) (cs : List Char) :
    skipSpace (c :: cs) = c :: cs := by
  simp [skipSpace, h]

/-! ### Scalars -/

theorem value?_null :
    value? (fuel + 1) depth .whole (chars .null ++ rest) = some (.null, rest) := by
  simp [value?, chars, scalarChars, skipSpace, isSpace, literal?, literals]

theorem value?_bool (b : Bool) :
    value? (fuel + 1) depth .whole (chars (.bool b) ++ rest) = some (.bool b, rest) := by
  cases b <;> simp [value?, chars, scalarChars, skipSpace, isSpace, literal?, literals]

theorem value?_str (s : String) :
    value? (fuel + 1) depth .whole (chars (.str s) ++ rest) = some (.str s, rest) := by
  have hquoted := quoted?_quoted s rest
  simp only [quoted, List.cons_append] at hquoted
  simp only [chars, scalarChars, quoted, List.cons_append]
  rw [value?, skipSpace_cons (by decide)]
  simp only []
  rw [hquoted]
  rfl

/-- What a number starts with. -/
def StartsNumber (c : Char) : Prop :=
  c = '-' ∨ c.isDigit = true

theorem StartsNumber.ne {c d : Char} (h : StartsNumber c) (hminus : d ≠ '-')
    (hdigit : d.isDigit = false) : c ≠ d := by
  rintro rfl
  rcases h with h | h
  · exact hminus h
  · rw [h] at hdigit
    cases hdigit

theorem StartsNumber.isSpace_eq_false {c : Char} (h : StartsNumber c) : isSpace c = false := by
  simp [isSpace, h.ne (d := ' ') (by decide) rfl, h.ne (d := '\t') (by decide) rfl,
    h.ne (d := '\n') (by decide) rfl, h.ne (d := '\r') (by decide) rfl]

/-- What starts a number starts no other value. -/
theorem StartsNumber.value? {c : Char} (h : StartsNumber c) (cs : List Char) :
    value? (fuel + 1) depth .whole (c :: cs) = number? (c :: cs) := by
  have hword : literal? (c :: cs) = none := by
    simp [literal?, literals, (h.ne (d := 'n') (by decide) rfl).symm,
      (h.ne (d := 't') (by decide) rfl).symm, (h.ne (d := 'f') (by decide) rfl).symm]
  have hquote : c ≠ '"' := h.ne (by decide) rfl
  have hbracket : c ≠ '[' := h.ne (by decide) rfl
  have hbrace : c ≠ '{' := h.ne (by decide) rfl
  rw [Json.value?, skipSpace_cons h.isSpace_eq_false]
  simp [hquote, hbracket, hbrace, hword]

theorem exists_cons_intText (n : Int) :
    ∃ c cs, (intText n).toList = c :: cs ∧ StartsNumber c := by
  cases n with
  | ofNat m =>
      obtain ⟨c, cs, hcs, hdigit⟩ := Text.exists_cons_toString m
      exact ⟨c, cs, hcs, .inr hdigit⟩
  | negSucc m => exact ⟨'-', (toString (m + 1)).toList, intText_negSucc m, .inl rfl⟩

theorem value?_int {n : Int} (word : IsWord n) (h : Ended rest) :
    value? (fuel + 1) depth .whole (chars (.int n) ++ rest) = some (.int n, rest) := by
  obtain ⟨c, cs, hcs, hlead⟩ := exists_cons_intText n
  have hread := number?_intText word h
  rw [hcs, List.cons_append] at hread
  show value? (fuel + 1) depth .whole ((intText n).toList ++ rest) = _
  rw [hcs, List.cons_append, hlead.value?, hread]

/-! ### Arrays and objects -/

/-- Whatever starts a value is not passed over and closes no array. -/
theorem Plain.exists_cons_chars {j : Json} (h : Plain depth j) :
    ∃ c cs, j.chars = c :: cs ∧ isSpace c = false ∧ c ≠ ']' := by
  cases h with
  | null => exact ⟨_, _, rfl, by decide, by decide⟩
  | bool depth b => cases b <;> exact ⟨_, _, rfl, by decide, by decide⟩
  | @int depth n word =>
      obtain ⟨c, cs, hcs, hlead⟩ := exists_cons_intText n
      exact ⟨c, cs, hcs, hlead.isSpace_eq_false, hlead.ne (by decide) rfl⟩
  | str depth s => exact ⟨_, _, rfl, by decide, by decide⟩
  | arr values => exact ⟨_, _, rfl, by decide, by decide⟩
  | obj keys values => exact ⟨_, _, rfl, by decide, by decide⟩

theorem exists_cons_charsItems {j : Json} (items : List Json) (h : Plain depth j) :
    ∃ c cs, charsItems (j :: items) = c :: cs ∧ isSpace c = false ∧ c ≠ ']' := by
  obtain ⟨c, cs, hcs, hlead⟩ := h.exists_cons_chars
  cases items with
  | nil => exact ⟨c, cs, by rw [charsItems, hcs], hlead⟩
  | cons k items =>
      refine ⟨c, cs ++ ',' :: charsItems (k :: items), ?_, hlead⟩
      rw [charsItems, hcs, List.cons_append]
      exact List.cons_ne_nil k items

theorem exists_cons_charsMembers (m : String × Json) (ms : List (String × Json)) :
    ∃ cs, charsMembers (m :: ms) = '"' :: cs := by
  cases ms with
  | nil => exact ⟨_, rfl⟩
  | cons n ms => exact ⟨_, rfl⟩

theorem Plain.chars_ne_nil {j : Json} (h : Plain depth j) : j.chars ≠ [] := by
  obtain ⟨c, cs, hcs, -⟩ := h.exists_cons_chars
  simp [hcs]

/-- A value is read back from its text, where it ends, by a search that is not too short. -/
def ReadBack (depth : Nat) (j : Json) : Prop :=
  ∀ fuel rest, j.chars.length ≤ fuel → Ended rest →
    value? fuel depth .whole (j.chars ++ rest) = some (j, rest)

/-- There is something to read, so that the search may take its first step. -/
theorem ReadBack.of_succ {j : Json} (hne : j.chars ≠ [])
    (h : ∀ fuel rest, j.chars.length ≤ fuel + 1 → Ended rest →
      value? (fuel + 1) depth .whole (j.chars ++ rest) = some (j, rest)) : ReadBack depth j := by
  intro fuel rest hfuel hended
  have hpos := List.length_pos_iff.mpr hne
  obtain ⟨fuel, rfl⟩ : ∃ n, fuel = n + 1 := Nat.exists_eq_succ_of_ne_zero (by omega)
  exact h fuel rest hfuel hended

/-- Elements that are read back one by one are read back together, up to their bracket. -/
theorem items?_charsItems {items : List Json} (hne : items ≠ [])
    (hread : ∀ j ∈ items, ReadBack depth j) (rest : List Char) :
    ∀ fuel, (charsItems items).length < fuel →
      items? fuel depth .whole (charsItems items ++ ']' :: rest) = some (items, rest) := by
  induction items with
  | nil => exact absurd rfl hne
  | cons j items ih =>
      intro fuel hfuel
      obtain ⟨fuel, rfl⟩ := Nat.exists_eq_succ_of_ne_zero (Nat.ne_zero_of_lt hfuel)
      have hj := hread j List.mem_cons_self
      -- the last element is ended by the bracket, any other by a comma
      cases items with
      | nil =>
          rw [charsItems] at hfuel ⊢
          rw [items?, hj fuel _ (by omega) (.bracket rest)]
          simp [skipSpace_cons, isSpace]
      | cons k items =>
          have htext :
              charsItems (j :: k :: items) = j.chars ++ ',' :: charsItems (k :: items) := rfl
          rw [htext, List.length_append, List.length_cons] at hfuel
          have hitems := ih (by simp) (fun k hk => hread k (List.mem_cons_of_mem _ hk)) fuel
            (by omega)
          rw [htext, List.append_assoc, List.cons_append, items?,
            hj fuel _ (by omega) (.comma _)]
          simp [skipSpace_cons, isSpace, hitems]

/-- A member is read back where its value is. -/
theorem member?_chars {k : String} {j : Json} (hread : ReadBack depth j) {fuel : Nat}
    (hfuel : j.chars.length < fuel) (h : Ended rest) :
    member? fuel depth .whole (quoted k ++ ':' :: (j.chars ++ rest)) =
      some (some (k, j), rest) := by
  obtain ⟨fuel, rfl⟩ := Nat.exists_eq_succ_of_ne_zero (Nat.ne_zero_of_lt hfuel)
  have hkey : skipSpace (quoted k ++ ':' :: (j.chars ++ rest)) =
      quoted k ++ ':' :: (j.chars ++ rest) := skipSpace_cons (by decide) _
  have hj := hread fuel rest (by omega) h
  rw [member?, hkey, quoted?_quoted]
  simp [skipSpace_cons, isSpace, Shape.member?, hj]

/-- Members whose values are read back are read back together, up to their brace. -/
theorem members?_charsMembers {ms : List (String × Json)} (hne : ms ≠ [])
    (hread : ∀ m ∈ ms, ReadBack depth m.2) (rest : List Char) :
    ∀ fuel, (charsMembers ms).length < fuel →
      members? fuel depth .whole (charsMembers ms ++ '}' :: rest) = some (ms, rest) := by
  induction ms with
  | nil => exact absurd rfl hne
  | cons m ms ih =>
      obtain ⟨k, j⟩ := m
      intro fuel hfuel
      obtain ⟨fuel, rfl⟩ := Nat.exists_eq_succ_of_ne_zero (Nat.ne_zero_of_lt hfuel)
      have hj : ReadBack depth j := hread (k, j) List.mem_cons_self
      cases ms with
      | nil =>
          have htext : charsMembers [(k, j)] = quoted k ++ ':' :: j.chars := rfl
          rw [htext, List.length_append, List.length_cons] at hfuel
          rw [htext, List.append_assoc, List.cons_append, members?,
            member?_chars hj (by omega) (.brace rest)]
          simp [skipSpace_cons, isSpace]
      | cons n ms =>
          have htext : charsMembers ((k, j) :: n :: ms) =
              quoted k ++ ':' :: j.chars ++ ',' :: charsMembers (n :: ms) := rfl
          simp only [htext, List.length_append, List.length_cons] at hfuel
          have hms := ih (by simp) (fun m hm => hread m (List.mem_cons_of_mem _ hm)) fuel
            (by omega)
          rw [htext, List.append_assoc, List.append_assoc, List.cons_append, List.cons_append,
            members?, member?_chars hj (by omega) (.comma _)]
          simp [skipSpace_cons, isSpace, hms]

theorem value?_arr {items : List Json} (hplain : ∀ j ∈ items, Plain depth j)
    (hread : ∀ j ∈ items, ReadBack depth j) {fuel : Nat}
    (hfuel : (chars (.arr items)).length ≤ fuel + 1) :
    value? (fuel + 1) (depth + 1) .whole (chars (.arr items) ++ rest) = some (.arr items, rest) := by
  have htext : chars (.arr items) ++ rest = '[' :: (charsItems items ++ ']' :: rest) := by
    simp [chars]
  have hlength : (chars (.arr items)).length = (charsItems items).length + 2 := by
    simp [chars]
  rw [htext, value?, skipSpace_cons (by decide)]
  cases items with
  | nil => simp [charsItems, skipSpace_cons, isSpace]
  | cons j items =>
      obtain ⟨c, cs, hcs, hspace, hclose⟩ :=
        exists_cons_charsItems items (hplain j List.mem_cons_self)
      have hitems := items?_charsItems (by simp) hread rest fuel (by omega)
      rw [hcs, List.cons_append] at hitems ⊢
      simp [skipSpace_cons hspace, hclose, Shape.element, hitems]

theorem value?_obj {ms : List (String × Json)} (hread : ∀ m ∈ ms, ReadBack depth m.2) {fuel : Nat}
    (hfuel : (chars (.obj ms)).length ≤ fuel + 1) :
    value? (fuel + 1) (depth + 1) .whole (chars (.obj ms) ++ rest) = some (.obj ms, rest) := by
  have htext : chars (.obj ms) ++ rest = '{' :: (charsMembers ms ++ '}' :: rest) := by
    simp [chars]
  have hlength : (chars (.obj ms)).length = (charsMembers ms).length + 2 := by
    simp [chars]
  rw [htext, value?, skipSpace_cons (by decide)]
  cases ms with
  | nil => simp [charsMembers, skipSpace_cons, isSpace]
  | cons m ms =>
      have hms := members?_charsMembers (by simp) hread rest fuel (by omega)
      obtain ⟨cs, hcs⟩ := exists_cons_charsMembers m ms
      rw [hcs, List.cons_append] at hms ⊢
      simp [skipSpace_cons (c := '"') (by decide), hms]

/-- **A plain document is read back from its text.** -/
theorem Plain.readBack {j : Json} (h : Plain depth j) : ReadBack depth j := by
  -- on plainness rather than on the document: it reaches into the lists of values
  induction h with
  | null depth => exact .of_succ (Plain.null depth).chars_ne_nil fun _ _ _ _ => value?_null
  | bool depth b => exact .of_succ (Plain.bool depth b).chars_ne_nil fun _ _ _ _ => value?_bool b
  | int depth word =>
      exact .of_succ (Plain.int depth word).chars_ne_nil fun _ _ _ hended => value?_int word hended
  | str depth s => exact .of_succ (Plain.str depth s).chars_ne_nil fun _ _ _ _ => value?_str s
  | arr values ih =>
      exact .of_succ (Plain.arr values).chars_ne_nil fun _ _ hfuel _ => value?_arr values ih hfuel
  | obj keys values ih =>
      exact .of_succ (Plain.obj keys values).chars_ne_nil fun _ _ hfuel _ => value?_obj ih hfuel

/-! ### Merging -/

/-- Members with keys of their own are put one after another. -/
theorem foldl_put {ms : List (String × Json)} : ∀ acc : List (String × Json),
    ((acc ++ ms).map Prod.fst).Nodup →
      ms.foldl (fun acc m => put m.1 m.2 acc) acc = acc ++ ms := by
  induction ms with
  | nil => simp
  | cons m ms ih =>
      intro acc hkeys
      have hnew : m.1 ∉ acc.map Prod.fst := by
        rw [List.map_append, List.nodup_append] at hkeys
        intro hm
        exact hkeys.2.2 _ hm _ List.mem_cons_self rfl
      have hkeys' : ((acc ++ [m] ++ ms).map Prod.fst).Nodup := by
        rwa [List.append_assoc, List.singleton_append]
      rw [List.foldl_cons, put_of_not_mem hnew, ih _ hkeys', List.append_assoc,
        List.singleton_append]

theorem mergeMembers_of_nodup {ms : List (String × Json)} (h : (ms.map Prod.fst).Nodup) :
    mergeMembers ms = ms :=
  foldl_put [] h

theorem mergedItems_of_merged {items : List Json} (h : ∀ j ∈ items, j.merged = j) :
    mergedItems items = items := by
  induction items with
  | nil => rfl
  | cons j items ih =>
      rw [mergedItems, h j List.mem_cons_self, ih fun k hk => h k (List.mem_cons_of_mem _ hk)]

theorem mergedMembers_of_merged {ms : List (String × Json)} (h : ∀ m ∈ ms, m.2.merged = m.2) :
    mergedMembers ms = ms := by
  induction ms with
  | nil => rfl
  | cons m ms ih =>
      obtain ⟨k, j⟩ := m
      rw [mergedMembers, h (k, j) List.mem_cons_self, ih fun m hm => h m (List.mem_cons_of_mem _ hm)]

/-- A plain document has no keys to merge. -/
theorem Plain.merged_eq {j : Json} (h : Plain depth j) : j.merged = j := by
  induction h with
  | null | bool | int | str => rfl
  | arr values ih => rw [merged, mergedItems_of_merged ih]
  | obj keys values ih => rw [merged, mergedMembers_of_merged ih, mergeMembers_of_nodup keys]

/-- **A text is parsed to the document it was written for.** -/
theorem Plain.parse?_compact {j : Json} (h : Plain maxDepth j) : parse? j.compact = some j := by
  have hread := h.readBack (3 * j.chars.length + 3) [] (by omega) .nil
  rw [List.append_nil] at hread
  rw [parse?, documentOf?, compact, String.toList_ofList, hread]
  simp [skipSpace, h.merged_eq]

end ResourceQuery.Json
