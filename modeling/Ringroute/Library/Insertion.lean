import Mathlib.Logic.Relation

namespace Library
set_option autoImplicit true

/-- `Inserts P as bs`: an element comes between those of `as`, with `P` for what stands before. -/
inductive Inserts (P : List α → α → Prop) : List α → List α → Prop where
  | insert (h : P front a) : Inserts P (front ++ back) (front ++ a :: back)

/-- The lists that come out the same once such elements are left out. -/
abbrev Interspersed (P : List α → α → Prop) : List α → List α → Prop :=
  Relation.EqvGen (Inserts P)

section Interspersed

variable {P : List α → α → Prop}

theorem Interspersed.mono {Q : List α → α → Prop} (h : Interspersed P as bs)
    (hpq : ∀ front a, P front a → Q front a) : Interspersed Q as bs := by
  refine Relation.EqvGen.mono ?_ _ _ h
  rintro _ _ ⟨hp⟩
  exact .insert (hpq _ _ hp)

/-- What one such element does not change, none of them change. -/
theorem Interspersed.congr {f : List α → β} (h : Interspersed P as bs)
    (hf : ∀ front a back, P front a → f (front ++ a :: back) = f (front ++ back)) :
    f bs = f as := by
  have hone : ∀ as bs, Inserts P as bs → f as = f bs := by
    rintro _ _ ⟨hp⟩
    exact (hf _ _ _ hp).symm
  exact (congrArg (Quot.lift f hone) (Quot.eqvGen_sound h)).symm

theorem Interspersed.snoc (h : P as a) : Interspersed P as (as ++ [a]) := by
  have hinsert : Inserts P (as ++ []) (as ++ [a]) := .insert h
  rw [List.append_nil] at hinsert
  exact .rel _ _ hinsert

end Interspersed

end Library
