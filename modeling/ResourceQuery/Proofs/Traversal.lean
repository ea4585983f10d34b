import Mathlib.Data.List.Forall2
import Mathlib.Data.List.Perm.Basic

/-!
# Traversal — steps that may fail

When steps put together succeed: a step and what is made of its result (`map_eq_ok_iff`), one step
after another (`bind_eq_ok_iff`), a step behind a check (`check_eq_ok_iff`), and a list taken one by
one (`mapM_eq_ok_iff`), whose result holds those of the steps in order.  When they fail
(`bind_eq_error_iff`, `mapM_eq_error_iff`): with the first step that does.

What they fail with (`FailsOnly`): steps put together fail with an error of one of them.

How two such steps compare (`Together`): both succeed or both fail, and their results or errors are
related.  A list taken one by one compares so with the same list in another order
(`Together.mapM_perm`).
-/

namespace ResourceQuery

variable {α β ε ε' : Type}

theorem map_eq_ok_iff {x : Except ε α} {f : α → β} {b : β} :
    x.map f = .ok b ↔ ∃ a, x = .ok a ∧ f a = b := by
  cases x with
  | error e => exact ⟨nofun, fun ⟨_, h, _⟩ => nomatch h⟩
  | ok a =>
      constructor
      · intro h
        exact ⟨a, rfl, Except.ok.inj h⟩
      · rintro ⟨a', h, rfl⟩
        cases h
        rfl

theorem map_eq_error_iff {x : Except ε α} {f : α → β} {e : ε} :
    x.map f = .error e ↔ x = .error e := by
  cases x with
  | error e' =>
      exact ⟨fun h => congrArg _ (Except.error.inj h), fun h => congrArg _ (Except.error.inj h)⟩
  | ok a => exact ⟨nofun, nofun⟩

theorem mapError_eq_ok_iff {x : Except ε α} {f : ε → ε'} {a : α} :
    x.mapError f = .ok a ↔ x = .ok a := by
  cases x with
  | error e => exact ⟨nofun, nofun⟩
  | ok a' => exact ⟨fun h => congrArg _ (Except.ok.inj h), fun h => congrArg _ (Except.ok.inj h)⟩

theorem bind_eq_ok_iff {x : Except ε α} {f : α → Except ε β} {b : β} :
    (x >>= f) = .ok b ↔ ∃ a, x = .ok a ∧ f a = .ok b := by
  cases x with
  | error e => exact ⟨nofun, fun ⟨_, h, _⟩ => nomatch h⟩
  | ok a =>
      constructor
      · intro h
        exact ⟨a, rfl, h⟩
      · rintro ⟨a', h, hf⟩
        cases h
        exact hf

theorem bind_eq_error_iff {x : Except ε α} {f : α → Except ε β} {e : ε} :
    (x >>= f) = .error e ↔ x = .error e ∨ ∃ a, x = .ok a ∧ f a = .error e := by
  cases x with
  | error e' =>
      constructor
      · intro h
        exact .inl (congrArg _ (Except.error.inj h))
      · rintro (h | ⟨a, h, -⟩)
        · exact congrArg _ (Except.error.inj h)
        · cases h
  | ok a =>
      constructor
      · intro h
        exact .inr ⟨a, rfl, h⟩
      · rintro (h | ⟨a', h, hf⟩)
        · cases h
        · cases h
          exact hf

/-- A step behind a check. -/
theorem check_eq_ok_iff {p : Prop} [Decidable p] {e : ε} {x : Except ε α} {a : α} :
    (if p then .error e else x) = .ok a ↔ ¬ p ∧ x = .ok a := by
  by_cases h : p <;> simp [h]

theorem mapM_eq_ok_iff {f : α → Except ε β} :
    ∀ {xs : List α} {ys : List β},
      xs.mapM f = .ok ys ↔ List.Forall₂ (fun x y => f x = .ok y) xs ys
  | [], ys => by
      rw [List.mapM_nil, List.forall₂_nil_left_iff]
      exact ⟨fun h => (Except.ok.inj h).symm, fun h => congrArg Except.ok h.symm⟩
  | x :: xs, ys => by
      rw [List.mapM_cons, List.forall₂_cons_left_iff, bind_eq_ok_iff]
      constructor
      · rintro ⟨y, hx, h⟩
        obtain ⟨zs, hxs, hys⟩ := bind_eq_ok_iff.mp h
        exact ⟨y, zs, hx, mapM_eq_ok_iff.mp hxs, (Except.ok.inj hys).symm⟩
      · rintro ⟨y, zs, hx, hxs, rfl⟩
        exact ⟨y, hx, bind_eq_ok_iff.mpr ⟨zs, mapM_eq_ok_iff.mpr hxs, rfl⟩⟩

/-- A list taken one by one fails as the first item does that fails. -/
theorem mapM_eq_error_iff {f : α → Except ε β} {e : ε} :
    ∀ {xs : List α},
      xs.mapM f = .error e ↔
        ∃ front x back, xs = front ++ x :: back ∧ (∀ y ∈ front, ∃ b, f y = .ok b) ∧ f x = .error e
  | [] => by
      rw [List.mapM_nil]
      constructor
      · nofun
      · rintro ⟨front, x, back, h, -⟩
        cases front <;> cases h
  | x :: xs => by
      rw [List.mapM_cons, bind_eq_error_iff]
      constructor
      · rintro (hx | ⟨b, hx, h⟩)
        · exact ⟨[], x, xs, rfl, nofun, hx⟩
        · obtain hxs | ⟨bs, -, ⟨⟩⟩ := bind_eq_error_iff.mp h
          obtain ⟨front, y, back, rfl, hfront, hy⟩ := mapM_eq_error_iff.mp hxs
          exact ⟨x :: front, y, back, rfl, List.forall_mem_cons.mpr ⟨⟨b, hx⟩, hfront⟩, hy⟩
      · rintro ⟨front, y, back, h, hfront, hy⟩
        cases front with
        | nil =>
            cases h
            exact .inl hy
        | cons z front =>
            cases h
            obtain ⟨⟨b, hx⟩, hfront⟩ := List.forall_mem_cons.mp hfront
            have hxs := mapM_eq_error_iff.mpr ⟨front, y, back, rfl, hfront, hy⟩
            exact .inr ⟨b, hx, bind_eq_error_iff.mpr (.inl hxs)⟩

theorem exists_of_mem_left {R : α → β → Prop} {xs : List α} {ys : List β} {x : α}
    (h : List.Forall₂ R xs ys) (hx : x ∈ xs) : ∃ y ∈ ys, R x y := by
  induction h with
  | nil => cases hx
  | cons hy _ ih =>
      rcases List.mem_cons.mp hx with rfl | hx
      · exact ⟨_, List.mem_cons_self, hy⟩
      · obtain ⟨y, hys, hxy⟩ := ih hx
        exact ⟨y, List.mem_cons_of_mem _ hys, hxy⟩

theorem exists_of_mem_right {R : α → β → Prop} {xs : List α} {ys : List β} {y : β}
    (h : List.Forall₂ R xs ys) (hy : y ∈ ys) : ∃ x ∈ xs, R x y :=
  exists_of_mem_left h.flip hy

/-- Two relations item by item, one after the other, are one relation item by item. -/
theorem forall₂_comp_iff {γ : Type} {R : α → β → Prop} {S : β → γ → Prop} :
    ∀ {xs : List α} {zs : List γ},
      (∃ ys, List.Forall₂ R xs ys ∧ List.Forall₂ S ys zs) ↔
        List.Forall₂ (fun x z => ∃ y, R x y ∧ S y z) xs zs
  | [], zs => by
      constructor
      · rintro ⟨ys, hxs, hzs⟩
        cases hxs
        cases hzs
        exact .nil
      · rintro ⟨⟩
        exact ⟨[], .nil, .nil⟩
  | x :: xs, zs => by
      constructor
      · rintro ⟨ys, hxs, hzs⟩
        obtain _ | ⟨hx, hxs⟩ := hxs
        obtain _ | ⟨hz, hzs⟩ := hzs
        exact .cons ⟨_, hx, hz⟩ (forall₂_comp_iff.mp ⟨_, hxs, hzs⟩)
      · rintro (_ | ⟨⟨y, hx, hz⟩, h⟩)
        obtain ⟨ys, hxs, hzs⟩ := forall₂_comp_iff.mpr h
        exact ⟨y :: ys, .cons hx hxs, .cons hz hzs⟩

/-! ### What steps fail with -/

/-- A step fails only with errors in `P`. -/
def FailsOnly (P : ε → Prop) (x : Except ε α) : Prop :=
  ∀ e, x = .error e → P e

namespace FailsOnly

variable {P : ε → Prop} {Q : ε' → Prop} {x : Except ε α}

theorem ok (a : α) : FailsOnly P (.ok a) := by
  intro e h
  cases h

theorem error_iff {e : ε} : FailsOnly P (.error e : Except ε α) ↔ P e := by
  constructor
  · intro h
    exact h e rfl
  · intro h e' he
    cases he
    exact h

theorem map (h : FailsOnly P x) (f : α → β) : FailsOnly P (x.map f) := by
  cases x with
  | error e => exact error_iff.mpr (h e rfl)
  | ok a => exact ok (f a)

theorem mapError (h : FailsOnly P x) {f : ε → ε'} (hf : ∀ e, P e → Q (f e)) :
    FailsOnly Q (x.mapError f) := by
  cases x with
  | error e => exact error_iff.mpr (hf e (h e rfl))
  | ok a => exact ok a

/-- A step behind a check fails as the check does, or as the step. -/
theorem check {p : Prop} [Decidable p] {e : ε} (he : P e) (h : FailsOnly P x) :
    FailsOnly P (if p then .error e else x) := by
  split
  · exact error_iff.mpr he
  · exact h

/-- One step after another fails as one of them does. -/
theorem bind (h : FailsOnly P x) {f : α → Except ε β} (hf : ∀ a, x = .ok a → FailsOnly P (f a)) :
    FailsOnly P (x >>= f) := by
  cases x with
  | error e => exact error_iff.mpr (h e rfl)
  | ok a => exact hf a rfl

/-- A list taken one by one fails as one of its items does. -/
theorem mapM {f : α → Except ε β} : ∀ {xs : List α}, (∀ a ∈ xs, FailsOnly P (f a)) →
    FailsOnly P (xs.mapM f)
  | [], _ => by
      rw [List.mapM_nil]
      exact ok []
  | a :: xs, h => by
      rw [List.mapM_cons]
      refine (h a List.mem_cons_self).bind fun b _ => ?_
      exact (mapM fun c hc => h c (List.mem_cons_of_mem a hc)).bind fun bs _ => ok (b :: bs)

end FailsOnly

/-! ### Two steps side by side -/

variable {α' β' δ δ' : Type}

/-- Both steps succeed, with results in `R`, or both fail, with errors in `E`. -/
inductive Together (E : ε → ε' → Prop) (R : α → β → Prop) : Except ε α → Except ε' β → Prop where
  | ok {a : α} {b : β} (h : R a b) : Together E R (.ok a) (.ok b)
  | error {e : ε} {e' : ε'} (h : E e e') : Together E R (.error e) (.error e')

namespace Together

variable {E : ε → ε' → Prop} {F : ε → ε → Prop} {R : α → β → Prop} {x : Except ε α}
  {y : Except ε' β}

/-- A step goes along with itself. -/
theorem refl (hE : ∀ e, F e e) : Together F Eq x x := by
  cases x with
  | ok a => exact .ok rfl
  | error e => exact .error (hE e)

theorem mono {E' : ε → ε' → Prop} (h : Together E R x y) (hE : ∀ e e', E e e' → E' e e') :
    Together E' R x y := by
  cases h with
  | ok h => exact .ok h
  | error h => exact .error (hE _ _ h)

/-- The results that are related are those of the steps. -/
theorem attach (h : Together E R x y) :
    Together E (fun a b => x = .ok a ∧ y = .ok b ∧ R a b) x y := by
  cases h with
  | ok h => exact .ok ⟨rfl, rfl, h⟩
  | error h => exact .error h

theorem map {S : α' → β' → Prop} (h : Together E R x y) {f : α → α'} {g : β → β'}
    (hfg : ∀ a b, R a b → S (f a) (g b)) : Together E S (x.map f) (y.map g) := by
  cases h with
  | ok h => exact .ok (hfg _ _ h)
  | error h => exact .error h

theorem mapError {D : δ → δ' → Prop} (h : Together E R x y) {f : ε → δ} {g : ε' → δ'}
    (hfg : ∀ e e', E e e' → D (f e) (g e')) : Together D R (x.mapError f) (y.mapError g) := by
  cases h with
  | ok h => exact .ok h
  | error h => exact .error (hfg _ _ h)

theorem bind {S : α' → β' → Prop} (h : Together E R x y) {f : α → Except ε α'}
    {g : β → Except ε' β'} (hfg : ∀ a b, R a b → Together E S (f a) (g b)) :
    Together E S (x >>= f) (y >>= g) := by
  cases h with
  | ok h => exact hfg _ _ h
  | error h => exact .error h

/-- **A list and its items in another order are taken one by one to the same results in another
order, or both fail.** -/
theorem mapM_perm {P : ε → Prop} {f : α → Except ε β} (hf : ∀ a, FailsOnly P (f a))
    {xs ys : List α} (h : xs.Perm ys) :
    Together (fun e e' => P e ∧ P e') List.Perm (xs.mapM f) (ys.mapM f) := by
  -- what is taken from one order can be taken from any other
  have hok : ∀ {xs ys : List α}, xs.Perm ys → ∀ {bs}, xs.mapM f = .ok bs →
      ∃ cs, ys.mapM f = .ok cs ∧ bs.Perm cs := by
    intro xs ys h bs hbs
    obtain ⟨cs, hcs, hperm⟩ := List.perm_comp_forall₂ h.symm (mapM_eq_ok_iff.mp hbs)
    exact ⟨cs, mapM_eq_ok_iff.mpr hcs, hperm.symm⟩
  cases hx : xs.mapM f with
  | ok bs =>
      obtain ⟨cs, hcs, hperm⟩ := hok h hx
      rw [hcs]
      exact .ok hperm
  | error e =>
      cases hy : ys.mapM f with
      | ok cs =>
          obtain ⟨bs, hbs, -⟩ := hok h.symm hy
          rw [hx] at hbs
          cases hbs
      | error e' =>
          exact .error ⟨FailsOnly.mapM (fun a _ => hf a) e hx,
            FailsOnly.mapM (fun a _ => hf a) e' hy⟩

end Together

end ResourceQuery
