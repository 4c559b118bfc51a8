import Mathlib.Data.List.Basic
import Mathlib.Data.List.SplitBy
import Mathlib.Data.List.TakeWhile

namespace Library
set_option autoImplicit true

/-- The elements up to the first one with the property, and that one. -/
def takeThrough (q : α → Bool) : List α → List α
  | [] => []
  | a :: as => if q a then [a] else a :: takeThrough q as

section TakeThrough

variable {p q : α → Bool}

theorem takeThrough_append (hfront : ∀ a ∈ front, q a = false) (ha : q a = true) :
    takeThrough q (front ++ a :: back) = front ++ [a] := by
  induction front with
  | nil => exact if_pos ha
  | cons b front ih =>
    have hb : ¬ q b = true := Bool.eq_false_iff.mp (hfront b List.mem_cons_self)
    have ih := ih fun c hc => hfront c (List.mem_cons_of_mem _ hc)
    rw [List.cons_append, takeThrough, if_neg hb, ih]
    rfl

theorem takeThrough_map (f : α → β) (q : β → Bool) (as : List α) :
    takeThrough q (as.map f) = (takeThrough (fun a => q (f a)) as).map f := by
  induction as with
  | nil => rfl
  | cons a as ih =>
    rw [List.map_cons, takeThrough, takeThrough, ih]
    split <;> rfl

theorem takeThrough_subset (h : a ∈ takeThrough q as) : a ∈ as := by
  induction as with
  | nil => exact h
  | cons b as ih =>
    rw [takeThrough] at h
    split at h
    · exact List.mem_singleton.mp h ▸ List.mem_cons_self
    · rcases List.mem_cons.mp h with rfl | h
      · exact List.mem_cons_self
      · exact List.mem_cons_of_mem _ (ih h)

theorem takeThrough_congr {q' : α → Bool} (h : ∀ a ∈ as, q a = q' a) :
    takeThrough q as = takeThrough q' as := by
  induction as with
  | nil => rfl
  | cons a as ih =>
    rw [takeThrough, takeThrough, h a List.mem_cons_self,
      ih fun b hb => h b (List.mem_cons_of_mem _ hb)]

theorem takeThrough_prefix {q' : α → Bool} (h : ∀ a ∈ as, q a = true → q' a = true) :
    takeThrough q' as <+: takeThrough q as := by
  induction as with
  | nil => exact List.prefix_rfl
  | cons a as ih =>
    have ih := ih fun b hb => h b (List.mem_cons_of_mem _ hb)
    simp only [takeThrough]
    by_cases ha : q a = true
    · simp only [ha, h a List.mem_cons_self ha, if_true]
      exact List.prefix_rfl
    · rw [if_neg ha]
      split
      · exact List.cons_prefix_cons.mpr ⟨rfl, List.nil_prefix⟩
      · exact List.cons_prefix_cons.mpr ⟨rfl, ih⟩

theorem takeThrough_stops {q' : α → Bool} (h : ∀ a ∈ as, q a = true → q' a = true) :
    takeThrough q' as = takeThrough q as ∨ ∃ front a back, takeThrough q as = front ++ a :: back ∧
      takeThrough q' as = front ++ [a] ∧ q a = false ∧ q' a = true := by
  induction as with
  | nil => exact .inl rfl
  | cons a as ih =>
    by_cases hq : q a = true
    · refine .inl ?_
      rw [takeThrough, takeThrough, if_pos hq, if_pos (h a List.mem_cons_self hq)]
    · by_cases hq' : q' a = true
      · refine .inr ⟨[], a, takeThrough q as, ?_, ?_, Bool.eq_false_iff.mpr hq, hq'⟩
        · exact if_neg hq
        · exact if_pos hq'
      · rw [takeThrough, takeThrough, if_neg hq, if_neg hq']
        rcases ih fun b hb => h b (List.mem_cons_of_mem _ hb) with
          heq | ⟨front, b, back, hfull, hcut, hb, hb'⟩
        · exact .inl (congrArg (a :: ·) heq)
        · exact .inr ⟨a :: front, b, back, congrArg (a :: ·) hfull, congrArg (a :: ·) hcut, hb, hb'⟩

theorem exists_first_of_takeWhile (h : ∃ a ∈ as.takeWhile p, q a = true) :
    ∃ front a back, as = front ++ a :: back ∧ (∀ b ∈ front, p b = true ∧ q b = false) ∧
      p a = true ∧ q a = true := by
  obtain ⟨a, ha, hq⟩ := h
  obtain ⟨c, hc⟩ := Option.isSome_iff_exists.mp (List.find?_isSome.mpr ⟨a, ha, hq⟩)
  obtain ⟨hqc, front, rest, he, hfront⟩ := List.find?_eq_some_iff_append.mp hc
  have hp {b : α} (hb : b ∈ front ++ c :: rest) : p b = true := List.mem_takeWhile_imp (he ▸ hb)
  refine ⟨front, c, rest ++ as.dropWhile p, ?_, ?_, hp (List.mem_append_right _ List.mem_cons_self),
    hqc⟩
  · have happend := @List.takeWhile_append_dropWhile _ p as
    rw [he, List.append_assoc, List.cons_append] at happend
    exact happend.symm
  · intro b hb
    exact ⟨hp (List.mem_append_left _ hb), by simpa using hfront b hb⟩

theorem mem_takeWhile_append (hfront : ∀ b ∈ front, p b = true) (ha : p a = true) :
    a ∈ (front ++ a :: back).takeWhile p := by
  rw [List.takeWhile_append_of_pos hfront, List.takeWhile_cons_of_pos ha]
  exact List.mem_append_right _ List.mem_cons_self

end TakeThrough

section Blocks

variable {f : α → β}

theorem blocks_cons {l : List α} {k : β} {ks : List β} (hks : (k :: ks).Nodup)
    (h : l.map f = (k :: ks).flatMap (List.replicate n)) :
    ∃ l₁ l₂, l = l₁ ++ l₂ ∧ l₁.map f = List.replicate n k ∧
      l₂.map f = ks.flatMap (List.replicate n) ∧ ∀ a ∈ l₂, f a ≠ k := by
  rw [List.flatMap_cons] at h
  obtain ⟨l₁, l₂, rfl, h₁, h₂⟩ := List.map_eq_append_iff.mp h
  refine ⟨l₁, l₂, rfl, h₁, h₂, ?_⟩
  rintro a ha rfl
  have hmem : f a ∈ ks.flatMap (List.replicate n) := h₂ ▸ List.mem_map_of_mem ha
  obtain ⟨k', hk', ha'⟩ := List.mem_flatMap.mp hmem
  exact (List.nodup_cons.mp hks).1 (List.eq_of_mem_replicate ha' ▸ hk')

theorem getElem?_blocks {ks : List β} (hn : 0 < n) (i : Nat) :
    (ks.flatMap (List.replicate n))[i]? = ks[i / n]? := by
  induction ks generalizing i with
  | nil => rfl
  | cons k ks ih =>
    rw [List.flatMap_cons]
    by_cases hi : i < n
    · rw [List.getElem?_append_left (by rwa [List.length_replicate]), Nat.div_eq_of_lt hi,
        List.getElem?_replicate_of_lt hi]
      rfl
    · have hle := Nat.le_of_not_lt hi
      have hdiv : i / n = (i - n) / n + 1 := Nat.div_eq_sub_div hn hle
      rw [List.getElem?_append_right (by rwa [List.length_replicate]), List.length_replicate, ih,
        hdiv, List.getElem?_cons_succ]

theorem take_drop_blocks {ks : List β} (hn : 0 < n) (hk : ks[j]? = some k) :
    ((ks.flatMap (List.replicate n)).drop (j * n)).take n = List.replicate n k := by
  apply List.ext_getElem?
  intro i
  rw [List.getElem?_take, List.getElem?_drop, getElem?_blocks hn, List.getElem?_replicate]
  split
  · rename_i hi
    rw [Nat.mul_comm, Nat.mul_add_div hn, Nat.div_eq_of_lt hi]
    exact hk
  · rfl

variable [DecidableEq β]

theorem filter_block (h : l.map f = List.replicate n k) (k' : β) :
    l.filter (f · == k') = if k = k' then l else [] := by
  have hall : ∀ a ∈ l, f a = k := by
    intro a ha
    exact List.eq_of_mem_replicate (h ▸ List.mem_map_of_mem ha)
  split
  · rename_i hk
    exact List.filter_eq_self.mpr fun a ha => beq_iff_eq.mpr ((hall a ha).trans hk)
  · rename_i hk
    apply List.filter_eq_nil_iff.mpr
    intro a ha he
    exact hk ((hall a ha).symm.trans (beq_iff_eq.mp he))

theorem splitBy_block {l₁ l₂ : List α} {k : β} (hn : 0 < n)
    (h : l₁.map f = List.replicate n k) (hne : ∀ a ∈ l₂, f a ≠ k) :
    (l₁ ++ l₂).splitBy (fun a b => f a == f b) = l₁ :: l₂.splitBy fun a b => f a == f b := by
  have hnil : l₁ ≠ [] := by
    rintro rfl
    have hlen := congrArg List.length h
    rw [List.length_replicate, List.map_nil, List.length_nil] at hlen
    omega
  have hall : ∀ a ∈ l₁, f a = k := by
    intro a ha
    exact List.eq_of_mem_replicate (h ▸ List.mem_map_of_mem ha)
  have hchain : l₁.IsChain fun a b => f a == f b := by
    refine (List.pairwise_of_forall_mem_list ?_).isChain
    intro a ha b hb
    exact beq_iff_eq.mpr ((hall a ha).trans (hall b hb).symm)
  rw [List.splitBy_append, List.splitBy_of_isChain hnil hchain]
  · rfl
  · intro a ha b hb
    apply beq_false_of_ne
    rw [hall a (List.mem_of_getLast? ha)]
    exact (hne b (List.mem_of_head? hb)).symm

/-- A list made of one block of equal length for each key splits into these blocks. -/
theorem splitBy_blocks {l : List α} {ks : List β} (hn : 0 < n) (hks : ks.Nodup)
    (h : l.map f = ks.flatMap (List.replicate n)) :
    l.splitBy (fun a b => f a == f b) = ks.map fun k => l.filter (f · == k) := by
  induction ks generalizing l with
  | nil =>
    have hl : l = [] := List.map_eq_nil_iff.mp h
    rw [hl]
    rfl
  | cons k ks ih =>
    obtain ⟨l₁, l₂, rfl, h₁, h₂, hne⟩ := blocks_cons hks h
    obtain ⟨hk, hks⟩ := List.nodup_cons.mp hks
    have hfilter : l₂.filter (f · == k) = [] := by
      apply List.filter_eq_nil_iff.mpr
      intro a ha he
      exact hne a ha (beq_iff_eq.mp he)
    rw [splitBy_block hn h₁ hne, ih hks h₂, List.map_cons, List.filter_append, filter_block h₁,
      if_pos rfl, hfilter, List.append_nil]
    refine congrArg (l₁ :: ·) (List.map_congr_left ?_)
    intro k' hk'
    have hkk : k ≠ k' := by
      rintro rfl
      exact hk hk'
    rw [List.filter_append, filter_block h₁, if_neg hkk, List.nil_append]

theorem splitBy_slices {l : List α} {ks : List β} (hn : 0 < n) (hks : ks.Nodup)
    (h : l.map f = ks.flatMap (List.replicate n)) :
    l.splitBy (fun a b => f a == f b) =
      (List.range ks.length).map fun j => (l.drop (j * n)).take n := by
  induction ks generalizing l with
  | nil =>
    have hl : l = [] := List.map_eq_nil_iff.mp h
    rw [hl]
    rfl
  | cons k ks ih =>
    obtain ⟨l₁, l₂, rfl, h₁, h₂, hne⟩ := blocks_cons hks h
    have hlen : l₁.length = n := by
      rw [← List.length_map f, h₁, List.length_replicate]
    rw [splitBy_block hn h₁ hne, ih (List.nodup_cons.mp hks).2 h₂, List.length_cons,
      List.range_succ_eq_map, List.map_cons, List.map_map, Nat.zero_mul, List.drop_zero,
      List.take_left' hlen]
    refine congrArg (l₁ :: ·) (List.map_congr_left ?_)
    intro j _
    have hskip : (j + 1) * n = l₁.length + j * n := by
      rw [Nat.succ_mul, hlen, Nat.add_comm]
    change _ = ((l₁ ++ l₂).drop ((j + 1) * n)).take n
    rw [hskip, List.drop_length_add_append]

end Blocks

end Library
