import Mathlib.Data.List.Induction

namespace Library
set_option autoImplicit true

/-- `Path step s ls t`: the labels `ls` lead from `s` to `t`, one step each. -/
inductive Path (step : σ → ℓ → σ → Prop) (s : σ) : List ℓ → σ → Prop where
  | refl : Path step s [] s
  | tail : Path step s ls t → step t l u → Path step s (ls ++ [l]) u

namespace Path

variable {step : σ → ℓ → σ → Prop}

theorem single (h : step s l t) : Path step s [l] t := .tail .refl h

theorem trans (h : Path step s ls t) (h' : Path step t ls' u) : Path step s (ls ++ ls') u := by
  induction h' with
  | refl => simpa only [List.append_nil] using h
  | tail _ hs ih =>
    rw [← List.append_assoc]
    exact .tail ih hs

theorem last (h : Path step s (ls ++ [l]) u) : ∃ t, Path step s ls t ∧ step t l u := by
  generalize hlabels : ls ++ [l] = labels at h
  cases h with
  | refl => exact absurd hlabels (List.append_ne_nil_of_right_ne_nil _ (List.cons_ne_nil _ _))
  | @tail ls' t _ _ hp hs =>
    obtain ⟨rfl, rfl⟩ := List.append_singleton_inj.mp hlabels
    exact ⟨t, hp, hs⟩

theorem split (h : Path step s (ls ++ ls') u) : ∃ t, Path step s ls t ∧ Path step t ls' u := by
  induction ls' using List.reverseRecOn generalizing u with
  | nil => exact ⟨u, List.append_nil ls ▸ h, .refl⟩
  | append_singleton ms m ih =>
    rw [← List.append_assoc] at h
    obtain ⟨t, hp, hs⟩ := h.last
    obtain ⟨v, hv, ht⟩ := ih hp
    exact ⟨v, hv, .tail ht hs⟩

/-- What holds at the start and is kept by every step holds at the end. -/
theorem invariant {I : σ → Prop} (h : Path step s ls t) (hs : I s)
    (hstep : ∀ {t l u}, I t → step t l u → I u) : I t := by
  induction h with
  | refl => exact hs
  | tail _ hl ih => exact hstep ih hl

/-- The same for a property of the labels met so far and the state they lead to. -/
theorem history {I : List ℓ → σ → Prop} (h : Path step s ls t) (hs : I [] s)
    (hstep : ∀ {ls t l u}, Path step s ls t → I ls t → step t l u → I (ls ++ [l]) u) :
    I ls t := by
  induction h with
  | refl => exact hs
  | tail hp hl ih => exact hstep hp ih hl

theorem mono {step' : σ → ℓ → σ → Prop} (h : Path step s ls t)
    (hstep : ∀ {s l t}, step s l t → step' s l t) : Path step' s ls t := by
  induction h with
  | refl => exact .refl
  | tail _ hl ih => exact .tail ih (hstep hl)

/-- A forward simulation: where every step met on the way is a step between what `f` makes of the
states, a run is a run of these. -/
theorem map {step' : τ → m → τ → Prop} {f : σ → τ} {g : ℓ → m} (h : Path step s ls t)
    (hstep : ∀ {ls t l u}, Path step s ls t → step t l u → step' (f t) (g l) (f u)) :
    Path step' (f s) (ls.map g) (f t) := by
  induction h with
  | refl => exact .refl
  | tail hp hl ih =>
    rw [List.map_append]
    exact .tail ih (hstep hp hl)

end Path

end Library
