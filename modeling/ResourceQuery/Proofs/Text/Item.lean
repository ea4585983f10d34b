import Mathlib.Data.List.TakeWhile
import ResourceQuery.Proofs.Text.Blank

/-!
# Text — the items of a comma-joined list

* `Trims`: what a text is trimmed to.  It is what is left between the white space at both ends
  (`trimChars_eq_iff`).
* `Lists`: the items of a text are what its segments between the commas are trimmed to, without the
  empty ones.  They are the items that are read (`lists_iff`), and each is an `Item`: a text that
  stands in a list as it is.
* `Joined.lists`: so items that are joined with commas, with white space around these or none, are
  the items of the text they are joined to.
-/

namespace ResourceQuery.Text

/-! ### Trimming -/

/-- All is white space. -/
def Blanks (cs : List Char) : Prop :=
  ∀ c ∈ cs, isBlank c = true

/-- There is no white space at either end. -/
structure Trimmed (cs : List Char) : Prop where
  head : ∀ c ∈ cs.head?, isBlank c = false
  last : ∀ c ∈ cs.getLast?, isBlank c = false

/-- `ds` is what white space stands around in `cs`. -/
inductive Trims : List Char → List Char → Prop where
  | intro {before ds after : List Char} (blankBefore : Blanks before) (blankAfter : Blanks after)
      (trimmed : Trimmed ds) : Trims (before ++ ds ++ after) ds

variable {cs ds p before after : List Char} {s : String} {ss : List String}

theorem dropBlanks_blanks_append (h : Blanks before) (cs : List Char) :
    dropBlanks (before ++ cs) = dropBlanks cs :=
  List.dropWhile_append_of_pos h

theorem dropBlanks_of_head (h : ∀ c ∈ cs.head?, isBlank c = false) : dropBlanks cs = cs := by
  cases cs with
  | nil => rfl
  | cons c cs => exact List.dropWhile_cons_of_neg (by simp [h c rfl])

/-- A text is white space and what does not start with any. -/
theorem exists_blanks_append (cs : List Char) : ∃ before, Blanks before ∧
    cs = before ++ dropBlanks cs ∧ ∀ c ∈ (dropBlanks cs).head?, isBlank c = false := by
  refine ⟨cs.takeWhile isBlank, fun c hc => List.mem_takeWhile_imp hc,
    List.takeWhile_append_dropWhile.symm, fun c hc => ?_⟩
  obtain ⟨ds, hds⟩ := List.head?_eq_some_iff.mp hc
  exact not_isBlank_of_dropBlanks hds

theorem Blanks.reverse (h : Blanks cs) : Blanks cs.reverse :=
  fun c hc => h c (List.mem_reverse.mp hc)

theorem trimChars_of_trims (h : Trims cs ds) : trimChars cs = ds := by
  obtain ⟨blankBefore, blankAfter, trimmed⟩ := h
  rename_i before after
  rw [trimChars, List.append_assoc, dropBlanks_blanks_append blankBefore]
  cases ds with
  | nil => rw [List.nil_append, dropBlanks_eq_nil_iff.mpr blankAfter]; rfl
  | cons d ds =>
      have hhead : dropBlanks (d :: ds ++ after) = d :: ds ++ after :=
        dropBlanks_of_head trimmed.head
      have hlast : dropBlanks (d :: ds).reverse = (d :: ds).reverse :=
        dropBlanks_of_head (by rw [List.head?_reverse]; exact trimmed.last)
      rw [hhead, List.reverse_append, dropBlanks_blanks_append blankAfter.reverse, hlast,
        List.reverse_reverse]

theorem trims_trimChars (cs : List Char) : Trims cs (trimChars cs) := by
  obtain ⟨before, blankBefore, hcs, hhead⟩ := exists_blanks_append cs
  obtain ⟨after, blankAfter, hds, hlast⟩ := exists_blanks_append (dropBlanks cs).reverse
  have hdrop : dropBlanks cs = trimChars cs ++ after.reverse := by
    rw [← List.reverse_reverse (dropBlanks cs), hds, List.reverse_append]
    rfl
  have htrimmed : Trimmed (trimChars cs) := by
    constructor
    · intro c hc
      refine hhead c ?_
      rw [hdrop, List.head?_append, hc]
      rfl
    · intro c hc
      rw [trimChars, List.getLast?_reverse] at hc
      exact hlast c hc
  have htrims := Trims.intro blankBefore blankAfter.reverse htrimmed
  rwa [List.append_assoc, ← hdrop, ← hcs] at htrims

/-- **What a text is trimmed to.** -/
theorem trimChars_eq_iff : trimChars cs = ds ↔ Trims cs ds := by
  constructor
  · rintro rfl
    exact trims_trimChars cs
  · exact trimChars_of_trims

theorem Trims.trimmed (h : Trims cs ds) : Trimmed ds := by
  cases h
  assumption

/-- What is trimmed is trimmed to itself. -/
theorem Trimmed.trims (h : Trimmed cs) : Trims cs cs := by
  have htrims : Trims ([] ++ cs ++ []) cs := .intro nofun nofun h
  rwa [List.nil_append, List.append_nil] at htrims

theorem Trims.blanks_append (h : Trims cs ds) (blank : Blanks before) : Trims (before ++ cs) ds := by
  obtain ⟨blankBefore, blankAfter, trimmed⟩ := h
  rw [← List.append_assoc, ← List.append_assoc]
  refine .intro (fun c hc => ?_) blankAfter trimmed
  rcases List.mem_append.mp hc with hc | hc
  · exact blank c hc
  · exact blankBefore c hc

theorem trimmed_of_not_isBlank (h : ∀ c ∈ cs, isBlank c = false) : Trimmed cs :=
  ⟨fun c hc => h c (List.mem_of_mem_head? hc), fun c hc => h c (List.mem_of_getLast? hc)⟩

theorem trimmed_trim (s : String) : Trimmed (trim s).toList := by
  rw [trim, String.toList_ofList]
  exact (trims_trimChars s.toList).trimmed

theorem trim_of_trimmed (h : Trimmed s.toList) : trim s = s := by
  rw [trim, trimChars_of_trims h.trims, String.ofList_toList]

/-! ### Segments -/

section

variable {α : Type} [DecidableEq α] {sep : α} {q xs : List α}

theorem segments_of_not_mem (h : sep ∉ q) : segments sep q = [q] := by
  induction q with
  | nil => rfl
  | cons c q ih =>
      rw [List.mem_cons, not_or] at h
      exact segments_cons_of_ne (Ne.symm h.1) (ih h.2)

theorem segments_append_cons (h : sep ∉ q) (xs : List α) :
    segments sep (q ++ sep :: xs) = q :: segments sep xs := by
  induction q with
  | nil => exact segments_cons_sep xs
  | cons c q ih =>
      rw [List.mem_cons, not_or] at h
      exact segments_cons_of_ne (Ne.symm h.1) (ih h.2)

/-- A text is one segment, or a segment before a separator and a shorter text. -/
theorem segments_induction (sep : α) {motive : List α → Prop} (last : ∀ q, sep ∉ q → motive q)
    (cons : ∀ q xs, sep ∉ q → motive xs → motive (q ++ sep :: xs)) (xs : List α) : motive xs := by
  by_cases h : sep ∈ xs
  · obtain ⟨q, ys, hxs, hq⟩ := List.eq_append_cons_of_mem h
    have hshorter : ys.length < xs.length := by
      rw [hxs, List.length_append, List.length_cons]
      omega
    rw [hxs]
    exact cons q ys hq (segments_induction sep last cons ys)
  · exact last xs h
termination_by xs.length

end

/-! ### Items -/

/-- A text that stands in a comma-joined list as it is. -/
structure Item (s : String) : Prop where
  nonempty : s.toList ≠ []
  whole : ',' ∉ s.toList
  trimmed : Trimmed s.toList

/-- What a segment holds: the text it is trimmed to, unless that is empty. -/
inductive Holds (p : List Char) : List String → Prop where
  | nothing (trims : Trims p []) : Holds p []
  | item {s : String} (trims : Trims p s.toList) (nonempty : s.toList ≠ []) : Holds p [s]

/-- The items of a text: what its segments between the commas hold, in order. -/
inductive Lists : List Char → List String → Prop where
  | last {p : List Char} {ss : List String} (whole : ',' ∉ p) (holds : Holds p ss) : Lists p ss
  | cons {p cs : List Char} {ss ss' : List String} (whole : ',' ∉ p) (holds : Holds p ss)
      (rest : Lists cs ss') : Lists (p ++ ',' :: cs) (ss ++ ss')

/-- The texts, with a comma between each two and white space around the commas or none. -/
inductive Joined : List String → List Char → Prop where
  | last (s : String) : Joined [s] s.toList
  | cons (s : String) {ss : List String} {before after cs : List Char} (blankBefore : Blanks before)
      (blankAfter : Blanks after) (rest : Joined ss cs) :
      Joined (s :: ss) (s.toList ++ before ++ ',' :: (after ++ cs))

/-- What is read of a segment. -/
def heldIn (p : List Char) : List String :=
  (([p].map trimChars).filter fun q => !q.isEmpty).map String.ofList

theorem items_eq_flatMap (s : String) : items s = (segments ',' s.toList).flatMap heldIn := by
  rw [items]
  induction segments ',' s.toList with
  | nil => rfl
  | cons p ps ih =>
      rw [List.flatMap_cons, ← ih, heldIn, ← List.map_append, ← List.filter_append,
        ← List.map_append, List.singleton_append]

theorem heldIn_eq_iff : heldIn p = ss ↔ Holds p ss := by
  rw [heldIn, List.map_singleton]
  constructor
  · rintro rfl
    by_cases hempty : trimChars p = []
    · rw [hempty]
      exact .nothing (trimChars_eq_iff.mp hempty)
    · have hheld : [trimChars p].filter (fun q => !q.isEmpty) = [trimChars p] := by simp [hempty]
      have htrims := trims_trimChars p
      rw [← String.toList_ofList (l := trimChars p)] at htrims
      rw [hheld]
      exact .item htrims (by rwa [String.toList_ofList])
  · intro h
    cases h with
    | nothing trims => rw [trimChars_of_trims trims]; rfl
    | item trims nonempty =>
        rw [trimChars_of_trims trims, List.filter_cons_of_pos (by simpa using nonempty)]
        simp

/-- **The items that are read of a text.** -/
theorem lists_iff : Lists s.toList ss ↔ items s = ss := by
  rw [items_eq_flatMap]
  constructor
  · intro h
    generalize s.toList = cs at h
    induction h with
    | last whole holds =>
        rw [segments_of_not_mem whole, List.flatMap_singleton]
        exact heldIn_eq_iff.mpr holds
    | cons whole holds rest ih =>
        rw [segments_append_cons whole, List.flatMap_cons, ih, heldIn_eq_iff.mpr holds]
  · rintro rfl
    generalize s.toList = cs
    induction cs using segments_induction ',' with
    | last p whole =>
        rw [segments_of_not_mem whole, List.flatMap_singleton]
        exact .last whole (heldIn_eq_iff.mp rfl)
    | cons p cs whole ih =>
        rw [segments_append_cons whole, List.flatMap_cons]
        exact .cons whole (heldIn_eq_iff.mp rfl) ih

theorem Holds.item_of_mem (h : Holds p ss) (whole : ',' ∉ p) (hs : s ∈ ss) : Item s := by
  cases h with
  | nothing => cases hs
  | item trims nonempty =>
      obtain rfl := List.mem_singleton.mp hs
      refine ⟨nonempty, fun hcomma => ?_, trims.trimmed⟩
      generalize s.toList = ds at trims hcomma
      obtain ⟨-, -, -⟩ := trims
      exact whole (by simp [hcomma])

theorem Lists.item_of_mem (h : Lists cs ss) (hs : s ∈ ss) : Item s := by
  induction h with
  | last whole holds => exact holds.item_of_mem whole hs
  | cons whole holds rest ih =>
      rcases List.mem_append.mp hs with hs | hs
      · exact holds.item_of_mem whole hs
      · exact ih hs

theorem item_of_mem_items {t : String} (h : s ∈ items t) : Item s :=
  (lists_iff.mpr rfl).item_of_mem h

/-- An item is the only one of its text. -/
theorem Item.items_eq (h : Item s) : items s = [s] :=
  lists_iff.mp (.last h.whole (.item h.trimmed.trims h.nonempty))

/-! ### Joining -/

theorem Blanks.comma_not_mem (h : Blanks cs) : ',' ∉ cs := by
  intro hcomma
  have hblank : isBlank ',' = true := h ',' hcomma
  exact absurd hblank (by decide)

theorem Holds.blanks_append (h : Holds p ss) (blank : Blanks before) : Holds (before ++ p) ss := by
  cases h with
  | nothing trims => exact .nothing (trims.blanks_append blank)
  | item trims nonempty => exact .item (trims.blanks_append blank) nonempty

/-- White space before a text changes nothing of its items. -/
theorem Lists.blanks_append (h : Lists cs ss) (blank : Blanks before) :
    Lists (before ++ cs) ss := by
  cases h with
  | last whole holds =>
      refine .last ?_ (holds.blanks_append blank)
      rw [List.mem_append, not_or]
      exact ⟨blank.comma_not_mem, whole⟩
  | cons whole holds rest =>
      rw [← List.append_assoc]
      refine .cons ?_ (holds.blanks_append blank) rest
      rw [List.mem_append, not_or]
      exact ⟨blank.comma_not_mem, whole⟩

/-- **Joined items are the items of the text they are joined to.** -/
theorem Joined.lists (h : Joined ss cs) (items : ∀ s ∈ ss, Item s) : Lists cs ss := by
  induction h with
  | last s =>
      have hs := items s List.mem_cons_self
      exact .last hs.whole (.item hs.trimmed.trims hs.nonempty)
  | cons s blankBefore blankAfter rest ih =>
      obtain ⟨hs, hss⟩ := List.forall_mem_cons.mp items
      have htrims : Trims ([] ++ s.toList ++ _) s.toList := .intro nofun blankBefore hs.trimmed
      refine .cons ?_ (.item htrims hs.nonempty) ((ih hss).blanks_append blankAfter)
      rw [List.mem_append, not_or]
      exact ⟨hs.whole, blankBefore.comma_not_mem⟩

/-- Two texts or more are joined with a comma. -/
theorem Joined.comma_mem (h : Joined ss cs) (several : 2 ≤ ss.length) : ',' ∈ cs := by
  cases h with
  | last s => exact absurd several (by simp)
  | cons s blankBefore blankAfter rest => simp

end ResourceQuery.Text
