import ResourceQuery.Proofs.Query.Compile
import ResourceQuery.Proofs.Schema.Table
import ResourceQuery.Proofs.Sql.Piece
import ResourceQuery.Proofs.Text.Blank
import ResourceQuery.Schema.Resource

/-!
# Schema — a table declared step by step

* `Declaration.Step`: a field under its own name, a field under another name than its column, or the
  column that marks deleted rows.  `foldl_take`: after any steps a declaration has the fields that
  were added, in turn, and the last mark.
* `isIdentifier_iff`: what an identifier is, character by character.  Quoting one puts a quote at
  either end and does nothing else (`quoted_of_identifier`).
* `declared_in_order`: so steps declare a table exactly if all names are identifiers and no field is
  added twice, and this table has the fields and columns that were added and no other.  A resource
  that names no fields to touch admits those of its table, in the order they are declared in.
-/

namespace ResourceQuery

/-! ### Identifiers -/

/-- A letter or an underscore, and letters, digits and underscores after it, all of ASCII. -/
def Text.Identifier (s : String) : Prop :=
  ∃ c cs, s.toList = c :: cs ∧ (c.isAlpha = true ∨ c = '_') ∧
    ∀ d ∈ cs, d.isAlphanum = true ∨ d = '_'

namespace Text

theorem isIdentifierStart_iff {c : Char} :
    isIdentifierStart c = true ↔ c.isAlpha = true ∨ c = '_' := by
  have hupper : (decide ('A' ≤ c) && decide (c ≤ 'Z')) = c.isUpper := (Bool.decide_and ..).symm
  have hlower : (decide ('a' ≤ c) && decide (c ≤ 'z')) = c.isLower := rfl
  have halpha : (c.isLower || c.isUpper) = c.isAlpha := Bool.or_comm _ _
  rw [isIdentifierStart, hupper, hlower, halpha, Bool.or_eq_true, beq_iff_eq]

theorem isIdentifierRest_iff {c : Char} :
    isIdentifierRest c = true ↔ c.isAlphanum = true ∨ c = '_' := by
  have hdigit : (decide ('0' ≤ c) && decide (c ≤ '9')) = c.isDigit := rfl
  rw [isIdentifierRest, hdigit, Bool.or_eq_true, isIdentifierStart_iff, Char.isAlphanum,
    Bool.or_eq_true, or_right_comm]

/-- **What an identifier is.** -/
theorem isIdentifier_iff {s : String} : isIdentifier s = true ↔ Identifier s := by
  rw [isIdentifier, Identifier]
  cases s.toList with
  | nil =>
      constructor
      · intro h
        cases h
      · rintro ⟨c, cs, h, -⟩
        cases h
  | cons c cs =>
      rw [isIdentifierChars, Bool.and_eq_true, List.all_eq_true, isIdentifierStart_iff]
      simp only [isIdentifierRest_iff]
      constructor
      · intro h
        exact ⟨c, cs, rfl, h⟩
      · rintro ⟨d, ds, h, hchars⟩
        cases h
        exact hchars

theorem Identifier.not_mem_quote {s : String} (h : Identifier s) : '"' ∉ s.toList := by
  intro hquote
  have hrest := isIdentifierRest_of_mem (isIdentifier_iff.mpr h) hquote
  exact absurd hrest (by decide)

end Text

namespace Piece

theorem doubleQuotes_of_not_mem {cs : List Char} (h : '"' ∉ cs) : doubleQuotes cs = cs := by
  induction cs with
  | nil => rfl
  | cons c cs ih =>
      rw [List.mem_cons, not_or] at h
      rw [doubleQuotes, if_neg (Ne.symm h.1), ih h.2]

/-- **Quoting an identifier only puts quotes around it.** -/
theorem quoted_of_identifier {s : String} (h : Text.Identifier s) :
    quoted s = "\"" ++ s ++ "\"" := by
  rw [quoted, quotedName, doubleQuotes_of_not_mem h.not_mem_quote]
  apply String.toList_inj.mp
  simp

end Piece

/-! ### Steps -/

namespace Declaration

/-- A step in declaring a table. -/
inductive Step where
  /-- A field backed by the column of its name. -/
  | field (name : String) (type : ColumnType)
  /-- A field backed by a column of another name. -/
  | mapped (name column : String) (type : ColumnType)
  /-- The column that marks deleted rows. -/
  | softDelete (column : String)

namespace Step

/-- A declaration after one more step. -/
def take (d : Declaration) : Step → Declaration
  | field name type => d.field name type
  | mapped name column type => d.mapped name column type
  | softDelete column => d.softDelete column

/-- The field that a step adds, with its column. -/
def added? : Step → Option (String × Column)
  | field name type => some (name, ⟨name, type⟩)
  | mapped name column type => some (name, ⟨column, type⟩)
  | softDelete _ => none

/-- The mark that a step sets. -/
def mark? : Step → Option String
  | softDelete column => some column
  | field _ _ | mapped _ _ _ => none

/-- The fields that are added, in turn. -/
def added (steps : List Step) : List (String × Column) :=
  steps.filterMap added?

/-- The mark that is set last. -/
def lastMark? (steps : List Step) : Option String :=
  (steps.filterMap mark?).getLast?

/-- **What one step does.** -/
theorem take_eq (d : Declaration) (s : Step) :
    s.take d = ⟨d.name, d.fields ++ s.added?.toList, s.mark?.or d.deletedAt⟩ := by
  cases s with
  | field name type => rfl
  | mapped name column type => rfl
  | softDelete column => exact congrArg (Declaration.mk d.name · _) (List.append_nil _).symm

end Step

/-- The declaration that steps lead to. -/
def ofSteps (name : String) (steps : List Step) : Declaration :=
  steps.foldl Step.take { name }

/-- **What steps do, one after the other**, to whatever was declared before them. -/
theorem foldl_take (steps : List Step) (d : Declaration) :
    steps.foldl Step.take d =
      ⟨d.name, d.fields ++ Step.added steps, (Step.lastMark? steps).or d.deletedAt⟩ := by
  induction steps generalizing d with
  | nil => exact congrArg (Declaration.mk d.name · _) (List.append_nil _).symm
  | cons s steps ih =>
      have hfields : s.added?.toList ++ Step.added steps = Step.added (s :: steps) := by
        rw [Step.added, Step.added, List.filterMap_cons]
        cases s.added? <;> rfl
      have hmark : (Step.lastMark? steps).or s.mark? = Step.lastMark? (s :: steps) := by
        rw [Step.lastMark?, Step.lastMark?, List.filterMap_cons]
        cases s.mark? with
        | none => exact Option.or_none
        | some c => exact (List.getLast?_append (l := [c])).symm
      rw [List.foldl_cons, ih, Step.take_eq, List.append_assoc, hfields, ← Option.or_assoc, hmark]

theorem ofSteps_eq (name : String) (steps : List Step) :
    ofSteps name steps = ⟨name, Step.added steps, Step.lastMark? steps⟩ := by
  rw [ofSteps, foldl_take, List.nil_append, Option.or_none]

end Declaration

/-! ### What is found in a table -/

/-- Of names that differ, each is looked up where it stands. -/
theorem lookup_eq_some_iff_mem {α : Type} {k : String} {v : α} {ms : List (String × α)}
    (h : (ms.map Prod.fst).Nodup) : ms.lookup k = some v ↔ (k, v) ∈ ms := by
  induction ms with
  | nil => simp
  | cons m ms ih =>
      obtain ⟨l, w⟩ := m
      rw [List.map_cons, List.nodup_cons] at h
      by_cases hk : k = l
      · subst hk
        have hnew : (k, v) ∉ ms := fun hmem => h.1 (List.mem_map.mpr ⟨_, hmem, rfl⟩)
        rw [List.lookup_cons_self, List.mem_cons, or_iff_left hnew, Option.some.injEq,
          Prod.mk.injEq, eq_comm, and_iff_right rfl]
      · have hother : (k, v) ≠ (l, w) := fun heq => hk (congrArg Prod.fst heq)
        rw [List.lookup_cons, beq_false_of_ne hk, List.mem_cons, or_iff_right hother]
        exact ih h.2

theorem lookup_eq_none_iff_not_mem {α : Type} {k : String} {ms : List (String × α)} :
    ms.lookup k = none ↔ k ∉ ms.map Prod.fst := by
  rw [List.lookup_eq_none_iff, List.mem_map, not_exists]
  refine forall_congr' fun m => ?_
  rw [bne_iff_ne, not_and, ne_comm]

namespace Table

/-- The names that stand in a table. -/
inductive Names (t : Table) : String → Prop where
  | table : t.Names t.name
  | field {m : String × Column} (h : m ∈ t.fields) : t.Names m.1
  | column {m : String × Column} (h : m ∈ t.fields) : t.Names m.2.name
  | mark {c : String} (h : t.deletedAt = some c) : t.Names c

open Declaration (Step) in
/-- The table has the name it was given, the last mark, and what was added in this order. -/
structure DeclaredBy (t : Table) (name : String) (steps : List Step) : Prop where
  name : t.name = name
  deletedAt : t.deletedAt = Step.lastMark? steps
  order : t.fields.map Prod.fst = (Step.added steps).map Prod.fst
  nodup : (t.fields.map Prod.fst).Nodup
  column : ∀ field c, t.column? field = some c ↔ (field, c) ∈ Step.added steps
  absent : ∀ field, t.column? field = none ↔ field ∉ (Step.added steps).map Prod.fst
  hasField : ∀ field, t.hasField field = true ↔ field ∈ (Step.added steps).map Prod.fst
  quoted : ∀ s, t.Names s → ∀ b, Piece.text b [.name s] = "\"" ++ s ++ "\""

end Table

namespace Declaration

variable {d : Declaration} {t : Table} {name : String} {steps : List Step}

/-- All names of a table that was built are identifiers. -/
theorem identifier_of_names (h : d.build = .ok t) {s : String} (hs : t.Names s) :
    Text.Identifier s := by
  obtain ⟨hsound, rfl⟩ := build_eq_ok_iff.mp h
  rw [← Text.isIdentifier_iff]
  cases hs with
  | table => exact hsound.name
  | field hm => exact (hsound.fields _ hm).1
  | column hm => exact (hsound.fields _ hm).2
  | mark hc => exact hsound.deletedAt _ hc

theorem exists_build_ofSteps_iff : (∃ t, (ofSteps name steps).build = .ok t) ↔
    Text.Identifier name ∧ (∀ c, Step.lastMark? steps = some c → Text.Identifier c) ∧
      (∀ m ∈ Step.added steps, Text.Identifier m.1 ∧ Text.Identifier m.2.name) ∧
      ((Step.added steps).map Prod.fst).Nodup := by
  simp only [← Text.isIdentifier_iff]
  rw [ofSteps_eq]
  constructor
  · rintro ⟨t, h⟩
    obtain ⟨hsound, -⟩ := build_eq_ok_iff.mp h
    exact ⟨hsound.name, hsound.deletedAt, hsound.fields, hsound.nodup⟩
  · rintro ⟨hname, hmark, hfields, hnodup⟩
    exact ⟨_, build_eq_ok_iff.mpr ⟨⟨hname, hmark, hfields, hnodup⟩, rfl⟩⟩

theorem declaredBy_of_build (h : (ofSteps name steps).build = .ok t) :
    t.DeclaredBy name steps := by
  have hnames := fun s => identifier_of_names h (s := s)
  rw [ofSteps_eq] at h
  obtain ⟨hsound, rfl⟩ := build_eq_ok_iff.mp h
  have habsent : ∀ field, (Step.added steps).lookup field = none ↔
      field ∉ (Step.added steps).map Prod.fst := fun _ => lookup_eq_none_iff_not_mem
  refine ⟨rfl, rfl, rfl, hsound.nodup, fun field c => lookup_eq_some_iff_mem hsound.nodup, habsent,
    fun field => ?_, fun s hs b => ?_⟩
  · rw [Table.hasField, Option.isSome_iff_ne_none, ← not_iff_not, not_not]
    exact habsent field
  · rw [Piece.text_name_cons, Piece.text_nil, String.append_empty]
    exact Piece.quoted_of_identifier (hnames s hs)

end Declaration

/-! ### The fields of a resource -/

theorem eraseDups_of_nodup {names : List String} (h : names.Nodup) : names.eraseDups = names := by
  induction names with
  | nil => rfl
  | cons x names ih =>
      rw [List.nodup_cons] at h
      have hkept : names.filter (fun y => !y == x) = names := by
        refine List.filter_eq_self.mpr fun y hy => ?_
        rw [Bool.not_eq_true', beq_eq_false_iff_ne]
        rintro rfl
        exact h.1 hy
      rw [List.eraseDups_cons, hkept, ih h.2]

namespace Resource

variable {r : Resource} {t : Table}

/-- The column that a resource declares for a field. -/
def columnOf (m : String × ColumnSpec) : Column :=
  ⟨m.2.column.getD m.1, m.2.type⟩

/-- The steps in which the table of a resource is declared. -/
def steps (r : Resource) : List Declaration.Step :=
  r.columns.map (fun m => .mapped m.1 (columnOf m).name m.2.type) ++
    r.deletedAt.toList.map .softDelete

theorem declaration_eq_ofSteps (r : Resource) :
    r.declaration = Declaration.ofSteps r.table r.steps := by
  have hfields : Declaration.Step.added r.steps = r.columns.map fun m => (m.1, columnOf m) := by
    have hmarks : (r.deletedAt.toList.map Declaration.Step.softDelete).filterMap
        Declaration.Step.added? = [] := by
      cases r.deletedAt <;> rfl
    rw [Declaration.Step.added, steps, List.filterMap_append, hmarks, List.append_nil,
      List.filterMap_map]
    exact congrFun List.filterMap_eq_map' r.columns
  have hmark : Declaration.Step.lastMark? r.steps = r.deletedAt := by
    have hcolumns : (r.columns.map fun m =>
        Declaration.Step.mapped m.1 (columnOf m).name m.2.type).filterMap
          Declaration.Step.mark? = [] := by
      rw [List.filterMap_map]
      exact List.filterMap_eq_nil_iff.mpr fun _ _ => rfl
    rw [Declaration.Step.lastMark?, steps, List.filterMap_append, hcolumns, List.nil_append]
    cases r.deletedAt <;> rfl
  rw [Declaration.ofSteps_eq, hfields, hmark]
  rfl

/-- **A resource that lists no fields admits those of its table**, in the order they are declared
in, and each is resolved to the column declared for it. -/
theorem resolve_allowList (hall : r.allowed = none) (h : r.build = .ok t) :
    r.allowList.names = r.columns.map Prod.fst ∧ r.allowList.names = t.fields.map Prod.fst ∧
      ∀ m ∈ r.columns, resolve t r.allowList m.1 = .ok (columnOf m) := by
  have hlist : r.allowList = .ofList (r.columns.map Prod.fst) := by
    rw [allowList, hall]
    rfl
  obtain ⟨hsound, rfl⟩ := Declaration.build_eq_ok_iff.mp h
  have hfields : r.declaration.fields.map Prod.fst = r.columns.map Prod.fst :=
    List.map_map
  have hnodup := hsound.nodup
  rw [hfields] at hnodup
  have hnames : r.allowList.names = r.columns.map Prod.fst := by
    rw [hlist]
    exact eraseDups_of_nodup hnodup
  refine ⟨hnames, hnames.trans hfields.symm, fun m hm => resolve_eq_ok_iff.mpr ⟨?_, ?_⟩⟩
  · rw [hlist, AllowList.contains_ofList]
    exact List.mem_map_of_mem hm
  · exact (lookup_eq_some_iff_mem hsound.nodup).mpr (List.mem_map.mpr ⟨m, hm, rfl⟩)

end Resource

open Declaration (Step ofSteps) in
/-- **Tables are declared in order.**  Steps declare a table exactly if the table, the last mark and
all fields and columns are named by identifiers and no field is added twice.  The table then has
these fields in turn, each with the column that it was added with, and no others, and quoting a name
in it only puts quotes around it.  A resource that lists no fields to touch admits those of its
table in turn, and each is resolved to its column. -/
theorem declared_in_order (name : String) (steps : List Step) :
    ((∃ t, (ofSteps name steps).build = .ok t) ↔
      Text.Identifier name ∧ (∀ c, Step.lastMark? steps = some c → Text.Identifier c) ∧
        (∀ m ∈ Step.added steps, Text.Identifier m.1 ∧ Text.Identifier m.2.name) ∧
        ((Step.added steps).map Prod.fst).Nodup) ∧
    (∀ t, (ofSteps name steps).build = .ok t → t.DeclaredBy name steps) ∧
    ∀ (r : Resource) (t : Table), r.allowed = none → r.build = .ok t →
      t.DeclaredBy r.table r.steps ∧ r.allowList.names = r.columns.map Prod.fst ∧
        r.allowList.names = t.fields.map Prod.fst ∧
        ∀ m ∈ r.columns, resolve t r.allowList m.1 = .ok (Resource.columnOf m) := by
  refine ⟨Declaration.exists_build_ofSteps_iff, fun t => Declaration.declaredBy_of_build,
    fun r t hall h => ⟨?_, Resource.resolve_allowList hall h⟩⟩
  rw [Resource.build, Resource.declaration_eq_ofSteps] at h
  exact Declaration.declaredBy_of_build h

/-- A resource of members. -/
def members : Resource where
  name := "members"
  table := "users"
  columns := [("name", ⟨none, .text⟩), ("joined", ⟨some "created_at", .timestamp⟩)]
  deletedAt := some "deleted_at"

/-- The steps to its table, with a mark that another one takes the place of. -/
def membersSteps : List Declaration.Step :=
  [.field "name" .text, .softDelete "gone", .mapped "joined" "created_at" .timestamp,
    .softDelete "deleted_at"]

/-- The table of members: the field of a mapped column is found, the column's own name is not, and
the last mark counts. -/
theorem declared_in_order_members :
    ∃ t, (Declaration.ofSteps "users" membersSteps).build = .ok t ∧
      t.column? "joined" = some ⟨"created_at", .timestamp⟩ ∧ t.column? "created_at" = none ∧
      t.deletedAt = some "deleted_at" ∧
      Piece.text .postgres [.name "created_at"] = "\"created_at\"" ∧
      members.allowed = none ∧ members.build = .ok t ∧
      resolve t members.allowList "joined" = .ok ⟨"created_at", .timestamp⟩ := by
  have hbuild : (Declaration.ofSteps "users" membersSteps).build = .ok ⟨"users",
      [("name", ⟨"name", .text⟩), ("joined", ⟨"created_at", .timestamp⟩)], some "deleted_at"⟩ := rfl
  obtain ⟨-, hdeclared, hresource⟩ := declared_in_order "users" membersSteps
  have htable := hdeclared _ hbuild
  obtain ⟨-, -, -, hresolve⟩ := hresource members _ rfl hbuild
  have hjoined : ("joined", Column.mk "created_at" .timestamp) ∈
      Declaration.Step.added membersSteps := by decide
  have hquoted := htable.quoted _ (.column hjoined) .postgres
  exact ⟨_, hbuild, (htable.column _ _).mpr hjoined, (htable.absent _).mpr (by decide),
    htable.deletedAt, hquoted, rfl, hbuild, hresolve (_, ⟨some "created_at", _⟩) (by decide)⟩

end ResourceQuery
