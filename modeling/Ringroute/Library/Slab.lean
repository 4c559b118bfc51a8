import Mathlib.Data.List.Perm.Basic
import Mathlib.Data.List.Nodup

namespace Library
set_option autoImplicit true

/-- Storage that hands out a key for each value put in, with what its users rely on: a key is
vacant when it is handed out, and indexes backing storage that grows by one slot at a time. -/
structure SlabApi (α : Type) where
  Slab : Type
  new : Slab
  get : Slab → Nat → Option α
  insert : Slab → α → Nat × Slab
  /-- `none` is the panic on a vacant key. -/
  remove : Slab → Nat → Option (α × Slab)
  isEmpty : Slab → Bool
  /-- The slots of the backing storage. -/
  slots : Slab → Nat
  get_new : ∀ k, get new k = none
  slots_new : slots new = 0
  insert_vacant : ∀ s a, get s (insert s a).1 = none
  insert_le : ∀ s a, (insert s a).1 ≤ slots s
  slots_insert : ∀ s a, slots (insert s a).2 ≤ slots s + 1
  get_insert : ∀ s a k, get (insert s a).2 k = if k = (insert s a).1 then some a else get s k
  remove_occupied : ∀ s k a, get s k = some a → ∃ t, remove s k = some (a, t) ∧
    ∀ j, get t j = if j = k then none else get s j
  isEmpty_iff : ∀ s, isEmpty s = true ↔ ∀ k, get s k = none

namespace SlabApi

variable {S : SlabApi α}

/-- The slab holds exactly the listed values under the listed keys. -/
structure Holds (S : SlabApi α) (s : S.Slab) (entries : List (Nat × α)) : Prop where
  keys_nodup : (entries.map Prod.fst).Nodup
  get_iff : ∀ k a, S.get s k = some a ↔ (k, a) ∈ entries

theorem holds_new : S.Holds S.new [] where
  keys_nodup := List.nodup_nil
  get_iff := by simp only [S.get_new, reduceCtorEq, List.not_mem_nil, implies_true]

theorem Holds.perm (h : S.Holds s es) (hp : es.Perm es') : S.Holds s es' where
  keys_nodup := (hp.map Prod.fst).nodup_iff.mp h.keys_nodup
  get_iff k a := (h.get_iff k a).trans hp.mem_iff

theorem Holds.insert_not_mem (h : S.Holds s es) (a : α) :
    (S.insert s a).1 ∉ es.map Prod.fst := by
  intro hm
  obtain ⟨⟨k, b⟩, hb, he⟩ := List.mem_map.mp hm
  have hg := (h.get_iff k b).mpr hb
  have hv := S.insert_vacant s a
  simp only at he
  rw [← he, hg] at hv
  cases hv

theorem Holds.insert (h : S.Holds s es) (a : α) :
    S.Holds (S.insert s a).2 (es ++ [((S.insert s a).1, a)]) where
  keys_nodup := by
    rw [List.map_append, List.nodup_append]
    refine ⟨h.keys_nodup, List.nodup_singleton _, ?_⟩
    intro k hk j hj he
    simp only [List.map_cons, List.map_nil, List.mem_singleton] at hj
    rw [he, hj] at hk
    exact h.insert_not_mem a hk
  get_iff k b := by
    rw [S.get_insert, List.mem_append, List.mem_singleton, ← h.get_iff]
    by_cases hk : k = (S.insert s a).1
    · subst hk
      simp [S.insert_vacant, eq_comm]
    · simp [hk]

theorem Holds.remove (h : S.Holds s ((k, a) :: es)) :
    ∃ t, S.remove s k = some (a, t) ∧ S.Holds t es := by
  have hg := (h.get_iff k a).mpr List.mem_cons_self
  obtain ⟨t, ht, hframe⟩ := S.remove_occupied s k a hg
  have hnd := h.keys_nodup
  simp only [List.map_cons, List.nodup_cons] at hnd
  refine ⟨t, ht, hnd.2, ?_⟩
  intro j b
  rw [hframe]
  by_cases hj : j = k
  · subst hj
    simp only [if_pos, reduceCtorEq, false_iff]
    exact fun hm => hnd.1 (List.mem_map.mpr ⟨_, hm, rfl⟩)
  · rw [if_neg hj, h.get_iff]
    simp [hj]

theorem Holds.isEmpty_iff (h : S.Holds s es) : S.isEmpty s = true ↔ es = [] := by
  rw [S.isEmpty_iff]
  constructor
  · intro hv
    cases es with
    | nil => rfl
    | cons e es =>
      have hg := (h.get_iff e.1 e.2).mpr List.mem_cons_self
      rw [hv] at hg
      cases hg
  · rintro rfl k
    cases hg : S.get s k with
    | none => rfl
    | some a => exact absurd ((h.get_iff k a).mp hg) List.not_mem_nil

end SlabApi

/-- A slab over a list of slots that refills the first vacant one. -/
def SlabApi.vec (α : Type) : SlabApi α where
  Slab := List (Option α)
  new := []
  get s k := s[k]?.join
  insert s a :=
    let k := s.findIdx Option.isNone
    (k, if k < s.length then s.set k (some a) else s ++ [some a])
  remove s k := s[k]?.join.map fun a => (a, s.set k none)
  isEmpty s := s.all Option.isNone
  slots := List.length
  get_new k := rfl
  slots_new := rfl
  insert_vacant s a := by
    simp only
    by_cases hk : s.findIdx Option.isNone < s.length
    · rw [List.getElem?_eq_getElem hk]
      simpa using List.findIdx_getElem (w := hk)
    · rw [List.getElem?_eq_none (Nat.le_of_not_lt hk)]
      rfl
  insert_le s a := List.findIdx_le_length
  slots_insert s a := by
    simp only
    split <;> simp
  get_insert s a k := by
    simp only
    have hle : s.findIdx Option.isNone ≤ s.length := List.findIdx_le_length
    split
    · rename_i hk
      rw [List.getElem?_set]
      by_cases he : s.findIdx Option.isNone = k
      · simp [he, he ▸ hk]
      · simp [he, Ne.symm he]
    · rename_i hk
      have he : s.findIdx Option.isNone = s.length := by omega
      rw [he]
      by_cases hks : k = s.length
      · simp [hks]
      · rw [if_neg hks]
        by_cases hlt : k < s.length
        · rw [List.getElem?_append_left hlt]
        · rw [List.getElem?_eq_none (by simp; omega), List.getElem?_eq_none (by omega)]
  remove_occupied s k a h := by
    refine ⟨_, by rw [h]; rfl, ?_⟩
    intro j
    rw [List.getElem?_set]
    by_cases he : k = j
    · subst he
      simp only [if_pos]
      split <;> rfl
    · simp [he, Ne.symm he]
  isEmpty_iff s := by
    simp only [List.all_eq_true, Option.isNone_iff_eq_none]
    constructor
    · intro h k
      cases hk : s[k]? with
      | none => rfl
      | some o =>
        rw [h o (List.mem_of_getElem? hk)]
        rfl
    · intro h o ho
      obtain ⟨k, hk⟩ := List.mem_iff_getElem?.mp ho
      have hj := h k
      rw [hk] at hj
      exact hj

end Library
