import ResourceQuery.Config.FileTree
import ResourceQuery.Proofs.Text.Item

/-!
# Config — where an expanded path leads

* `Rooted`: absolute, and without white space at the end.  What is joined to a rooted path is rooted
  (`Rooted.join`), and a rooted path is expanded to itself (`expandChars_of_rooted`).
* `names_join`: the names in a relative path that is joined to a directory follow those in the
  directory.
* `expand_stays`: so an expanded path is absolute and is expanded to itself; and one that begins
  with `~` and a slash leads through the home directory, unless a second slash follows.
-/

namespace ResourceQuery

variable {cs ds base rest path home cwd : List Char} {c : Char}

/-! ### The end of a text -/

/-- No white space is at the end. -/
def Text.EndsFlush (cs : List Char) : Prop :=
  ∀ c ∈ cs.getLast?, isBlank c = false

namespace Text

theorem endsFlush_iff : cs.getLast?.all (!isBlank ·) = true ↔ EndsFlush cs := by
  rw [EndsFlush]
  cases cs.getLast? <;> simp

instance (cs : List Char) : Decidable (EndsFlush cs) :=
  decidable_of_iff _ endsFlush_iff

theorem EndsFlush.append (hcs : EndsFlush cs) (hds : EndsFlush ds) : EndsFlush (cs ++ ds) := by
  intro c hc
  rw [List.getLast?_append] at hc
  cases hlast : ds.getLast? with
  | none => exact hcs c (by rwa [hlast, Option.none_or] at hc)
  | some d => exact hds c (by rwa [hlast, Option.some_or, ← hlast] at hc)

theorem EndsFlush.cons (hc : isBlank c = false) (hcs : EndsFlush cs) : EndsFlush (c :: cs) := by
  have hone : EndsFlush [c] := by
    rintro d ⟨⟩
    exact hc
  exact hone.append hcs

/-- What ends a text that ends flush does so too. -/
theorem EndsFlush.of_cons (h : EndsFlush (c :: cs)) : EndsFlush cs := by
  intro d hd
  refine h d ?_
  rw [List.getLast?_cons, hd]
  rfl

end Text

namespace Path

/-! ### Joining -/

/-- The path is absolute and has no white space at its end. -/
structure Rooted (path : List Char) : Prop where
  absolute : isAbsolute path = true
  flush : Text.EndsFlush path

theorem isAbsolute_iff : isAbsolute path = true ↔ ∃ cs, path = '/' :: cs := by
  constructor
  · intro h
    unfold isAbsolute at h
    split at h
    · exact ⟨_, rfl⟩
    · cases h
  · rintro ⟨cs, rfl⟩
    rfl

theorem isAbsolute_append (h : isAbsolute base = true) (rest : List Char) :
    isAbsolute (base ++ rest) = true := by
  obtain ⟨cs, rfl⟩ := isAbsolute_iff.mp h
  rfl

theorem join_of_absolute (h : isAbsolute rest = true) : join base rest = rest :=
  if_pos h

/-- A relative path stands after the directory and a slash, which the directory may end in. -/
theorem join_of_relative (base : List Char) (h : isAbsolute rest = false) :
    (∃ above, base = above ++ ['/'] ∧ join base rest = base ++ rest) ∨
      join base rest = base ++ '/' :: rest := by
  rw [join, h, if_neg Bool.false_ne_true]
  by_cases hslash : base.getLast? = some '/'
  · obtain ⟨above, habove⟩ := List.getLast?_eq_some_iff.mp hslash
    exact .inl ⟨above, habove, if_pos hslash⟩
  · exact .inr (if_neg hslash)

/-- **What is joined to a rooted path is rooted.** -/
theorem Rooted.join (hbase : Rooted base) (hrest : Text.EndsFlush rest) :
    Rooted (join base rest) := by
  cases habsolute : isAbsolute rest with
  | true =>
      rw [join_of_absolute habsolute]
      exact ⟨habsolute, hrest⟩
  | false =>
      rcases join_of_relative base habsolute with ⟨-, -, h⟩ | h
      · rw [h]
        exact ⟨isAbsolute_append hbase.absolute rest, hbase.flush.append hrest⟩
      · rw [h]
        exact ⟨isAbsolute_append hbase.absolute _, hbase.flush.append (hrest.cons (by decide))⟩

/-! ### Expanding -/

theorem expandChars_of_absolute (h : isAbsolute (expandHome home (Text.trimChars path)) = true) :
    expandChars home cwd path = expandHome home (Text.trimChars path) :=
  if_pos h

theorem expandChars_of_relative (h : isAbsolute (expandHome home (Text.trimChars path)) = false) :
    expandChars home cwd path = join cwd (expandHome home (Text.trimChars path)) :=
  if_neg (by rw [h]; exact Bool.false_ne_true)

theorem expandHome_slash (hc : c = '/' ∨ c = '\\') (home rest : List Char) :
    expandHome home ('~' :: c :: rest) = join home rest :=
  if_pos hc

/-- What the home directory is put into is the home directory, or joined to it, or it is the path as
it was. -/
theorem expandHome_cases (home path : List Char) :
    expandHome home path = home ∨
      (∃ c rest, path = '~' :: c :: rest ∧ expandHome home path = join home rest) ∨
      expandHome home path = path := by
  unfold expandHome
  split
  · exact .inl rfl
  · split
    · exact .inr (.inl ⟨_, _, rfl, rfl⟩)
    · exact .inr (.inr rfl)
  · exact .inr (.inr rfl)

theorem endsFlush_expandHome (hhome : Rooted home) (hpath : Text.EndsFlush path) :
    Text.EndsFlush (expandHome home path) := by
  rcases expandHome_cases home path with h | ⟨c, rest, rfl, h⟩ | h
  · rw [h]
    exact hhome.flush
  · rw [h]
    exact (hhome.join hpath.of_cons.of_cons).flush
  · rw [h]
    exact hpath

/-- **An expanded path is rooted**, whatever the path. -/
theorem rooted_expandChars (hhome : Rooted home) (hcwd : Rooted cwd) (path : List Char) :
    Rooted (expandChars home cwd path) := by
  have hflush : Text.EndsFlush (expandHome home (Text.trimChars path)) :=
    endsFlush_expandHome hhome (Text.trims_trimChars path).trimmed.last
  cases habsolute : isAbsolute (expandHome home (Text.trimChars path)) with
  | true =>
      rw [expandChars_of_absolute habsolute]
      exact ⟨habsolute, hflush⟩
  | false =>
      rw [expandChars_of_relative habsolute]
      exact hcwd.join hflush

/-- **A rooted path is expanded to itself.** -/
theorem expandChars_of_rooted (h : Rooted path) : expandChars home cwd path = path := by
  obtain ⟨cs, rfl⟩ := isAbsolute_iff.mp h.absolute
  have htrimmed : Text.Trimmed ('/' :: cs) := by
    refine ⟨?_, h.flush⟩
    rintro c ⟨⟩
    decide
  have hhome : expandHome home ('/' :: cs) = '/' :: cs := rfl
  have htrim : Text.trimChars ('/' :: cs) = '/' :: cs := Text.trimChars_of_trims htrimmed.trims
  rw [expandChars_of_absolute (by rw [htrim, hhome]; rfl), htrim, hhome]

end Path

/-! ### Names -/

theorem Text.segments_append {α : Type} [DecidableEq α] (sep : α) (xs ys : List α) :
    segments sep (xs ++ sep :: ys) = segments sep xs ++ segments sep ys := by
  induction xs using segments_induction sep with
  | last q hq => rw [segments_append_cons hq, segments_of_not_mem hq, List.singleton_append]
  | cons q xs hq ih =>
      rw [List.append_assoc, List.cons_append, segments_append_cons hq, ih, segments_append_cons hq,
        List.cons_append]

namespace FileTree

theorem names_slash (cs ds : List Char) : names (String.ofList (cs ++ '/' :: ds)) =
    names (String.ofList cs) ++ names (String.ofList ds) := by
  simp only [names, components, String.toList_ofList, Text.segments_append, List.map_append,
    List.filter_append]

/-- **The names in a relative path follow those of the directory it is joined to.** -/
theorem names_join (base : List Char) (h : Path.isAbsolute rest = false) :
    names (String.ofList (Path.join base rest)) =
      names (String.ofList base) ++ names (String.ofList rest) := by
  have hnone : names (String.ofList []) = [] := rfl
  rcases Path.join_of_relative base h with ⟨above, rfl, hjoin⟩ | hjoin
  · rw [hjoin, List.append_assoc, List.singleton_append, names_slash, names_slash, hnone,
      List.append_nil]
  · rw [hjoin, names_slash]

end FileTree

namespace Path

/-- The names in the path begin with those of the directory.  A `..` is a name like any other here,
as expanding a path removes none. -/
def AtOrBelow (directory path : String) : Prop :=
  FileTree.names directory <+: FileTree.names path

instance (directory path : String) : Decidable (AtOrBelow directory path) :=
  inferInstanceAs (Decidable (_ <+: _))

variable {place : Place} {written : String}

theorem expand_tilde (hhome : Rooted place.home.toList) (h : Text.trim written = "~") :
    expand place written = place.home := by
  have htrim : Text.trimChars written.toList = ['~'] := String.ofList_inj.mp h
  have hexpand : expandHome place.home.toList (Text.trimChars written.toList) =
      place.home.toList := by rw [htrim]; rfl
  rw [expand, expandChars_of_absolute (by rw [hexpand]; exact hhome.absolute), hexpand,
    String.ofList_toList]

/-- What follows a tilde and a slash is joined to the home directory. -/
theorem expand_tildeSlash (hhome : Rooted place.home.toList) (hc : c = '/' ∨ c = '\\')
    (h : (Text.trim written).toList = '~' :: c :: rest) :
    expand place written = String.ofList (join place.home.toList rest) := by
  rw [Text.trim, String.toList_ofList] at h
  have hexpand : expandHome place.home.toList (Text.trimChars written.toList) =
      join place.home.toList rest := by rw [h, expandHome_slash hc]
  have hrest : Text.EndsFlush rest :=
    (h ▸ (Text.trims_trimChars written.toList).trimmed.last : Text.EndsFlush _).of_cons.of_cons
  rw [expand, expandChars_of_absolute (by rw [hexpand]; exact (hhome.join hrest).absolute), hexpand]

end Path

open ResourceQuery.Path in
/-- **An expanded path stays where it says.**  Where the home and the working directory are rooted,
it is absolute and is expanded to itself.  A tilde alone is the home directory.  With a slash of
either kind after the tilde, what follows them is put after the home directory, name by name; but
where that begins with one more slash, it is taken for the whole path, and the home directory is
left unless this path happens to lie in it. -/
theorem expand_stays {place : Place} (hhome : Rooted place.home.toList)
    (hcwd : Rooted place.cwd.toList) (path : String) :
    isAbsolute (expand place path).toList = true ∧
    expand place (expand place path) = expand place path ∧
    (Text.trim path = "~" → expand place path = place.home) ∧
    ∀ c rest, c = '/' ∨ c = '\\' → (Text.trim path).toList = '~' :: c :: rest →
      (isAbsolute rest = false → FileTree.names (expand place path) =
        FileTree.names place.home ++ FileTree.names (String.ofList rest)) ∧
      (isAbsolute rest = true → expand place path = String.ofList rest) ∧
      (AtOrBelow place.home (expand place path) ↔
        (isAbsolute rest = true → AtOrBelow place.home (String.ofList rest))) := by
  have hrooted : Rooted (expand place path).toList := by
    rw [expand, String.toList_ofList]
    exact rooted_expandChars hhome hcwd path.toList
  refine ⟨hrooted.absolute, ?_, expand_tilde hhome, fun c rest hc hpath => ?_⟩
  · rw [expand, expandChars_of_rooted hrooted, String.ofList_toList]
  · rw [expand_tildeSlash hhome hc hpath]
    cases habsolute : isAbsolute rest with
    | true =>
        rw [join_of_absolute habsolute]
        exact ⟨nofun, fun _ => rfl, fun h _ => h, fun h => h rfl⟩
    | false =>
        have hnames := FileTree.names_join place.home.toList habsolute
        rw [String.ofList_toList] at hnames
        refine ⟨fun _ => hnames, nofun, fun _ => nofun, fun _ => ?_⟩
        rw [AtOrBelow, hnames]
        exact List.prefix_append _ _

/-- The home directory of a user at work elsewhere. -/
def Path.atWork : Path.Place where
  home := "/home/ann"
  cwd := "/srv/data"

theorem Path.atWork_rooted :
    Rooted atWork.home.toList ∧ Rooted atWork.cwd.toList :=
  ⟨⟨by decide, by decide⟩, ⟨by decide, by decide⟩⟩

/-- A file of the user's own, with white space around what is written. -/
theorem expand_stays_ownFile :
    Path.Rooted Path.atWork.home.toList ∧ Path.Rooted Path.atWork.cwd.toList ∧
      Path.expand Path.atWork "\u3000~/conf/a b " = "/home/ann/conf/a b" ∧
      Path.expand Path.atWork "/home/ann/conf/a b" = "/home/ann/conf/a b" ∧
      Path.AtOrBelow Path.atWork.home "/home/ann/conf/a b" := by
  obtain ⟨hhome, hcwd⟩ := Path.atWork_rooted
  have hvalue : Path.expand Path.atWork "\u3000~/conf/a b " = "/home/ann/conf/a b" := by decide
  obtain ⟨-, hagain, -, hslash⟩ := expand_stays hhome hcwd "\u3000~/conf/a b "
  obtain ⟨-, -, hbelow⟩ := hslash '/' "conf/a b".toList (.inl rfl) (by decide)
  rw [hvalue] at hagain hbelow
  exact ⟨hhome, hcwd, hvalue, hagain, hbelow.mpr nofun⟩

/-- With a second slash after the tilde the home directory is left. -/
theorem expand_leavesHome :
    Path.Rooted Path.atWork.home.toList ∧ Path.Rooted Path.atWork.cwd.toList ∧
      (Text.trim "~//x").toList = ['~', '/', '/', 'x'] ∧ Path.expand Path.atWork "~//x" = "/x" ∧
      ¬ Path.AtOrBelow Path.atWork.home (Path.expand Path.atWork "~//x") := by
  obtain ⟨hhome, hcwd⟩ := Path.atWork_rooted
  exact ⟨hhome, hcwd, by decide, by decide, by decide⟩

/-- What goes up from the home directory is kept as it is written. -/
example : Path.expand Path.atWork "~/../x" = "/home/ann/../x" := by decide

end ResourceQuery
