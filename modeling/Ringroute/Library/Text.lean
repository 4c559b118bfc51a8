import Mathlib.Logic.Function.Basic

namespace Library
set_option autoImplicit true

section Digits

theorem digitChar_inj : ∀ d < 16, ∀ e < 16, d.digitChar = e.digitChar → d = e := by decide

theorem toDigits_concat (hb : 1 < b) (n : Nat) :
    Nat.toDigits b n = (if n < b then [] else Nat.toDigits b (n / b)) ++ [(n % b).digitChar] := by
  rw [Nat.toDigits_eq_if hb]
  split
  · rename_i hlt
    rw [Nat.mod_eq_of_lt hlt, List.nil_append]
  · rfl

theorem mem_toDigits (hb : 1 < b) (h : c ∈ Nat.toDigits b n) : ∃ d < b, c = d.digitChar := by
  induction n using Nat.strongRecOn with
  | ind n ih =>
    rw [toDigits_concat hb] at h
    rcases List.mem_append.mp h with h | h
    · split at h
      · exact absurd h List.not_mem_nil
      · rename_i hle
        have hpos : 0 < n := by omega
        exact ih (n / b) (Nat.div_lt_self hpos hb) h
    · exact ⟨n % b, Nat.mod_lt n (by omega), List.mem_singleton.mp h⟩

theorem toDigits_injective (hb : 1 < b) (hle : b ≤ 16) : Function.Injective (Nat.toDigits b) := by
  intro m
  induction m using Nat.strongRecOn with
  | ind m ih =>
    intro n h
    rw [toDigits_concat hb m, toDigits_concat hb n] at h
    obtain ⟨hfront, hlast⟩ := List.append_inj' h rfl
    have hm : m % b < 16 := Nat.lt_of_lt_of_le (Nat.mod_lt m (by omega)) hle
    have hn : n % b < 16 := Nat.lt_of_lt_of_le (Nat.mod_lt n (by omega)) hle
    have hmod : m % b = n % b := digitChar_inj _ hm _ hn (List.cons.inj hlast).1
    have hdiv : m / b = n / b := by
      split at hfront <;> split at hfront
      · rename_i hmb hnb
        rw [Nat.div_eq_of_lt hmb, Nat.div_eq_of_lt hnb]
      · exact absurd hfront.symm Nat.toDigits_ne_nil
      · exact absurd hfront Nat.toDigits_ne_nil
      · exact ih (m / b) (Nat.div_lt_self (by omega) hb) hfront
    rw [← Nat.div_add_mod m b, ← Nat.div_add_mod n b, hdiv, hmod]

end Digits

section Words

variable {α : Type} [DecidableEq α] {blank : α}

/-- The words of a text, which blanks set apart. -/
def words (blank : α) (text : List α) : List (List α) :=
  (text.splitOn blank).filter fun word => !word.isEmpty

theorem words_append_cons (front back : List α) :
    words blank (front ++ blank :: back) = words blank front ++ words blank back := by
  rw [words, List.splitOn_append_cons_self, List.filter_append]
  rfl

theorem words_cons (back : List α) : words blank (blank :: back) = words blank back :=
  words_append_cons [] back

theorem words_self {word : List α} (h : blank ∉ word) (hne : word ≠ []) :
    words blank word = [word] := by
  rw [words, List.splitOn_eq_singleton h, List.filter_cons_of_pos]
  · rfl
  · simpa using hne

theorem words_replicate (n : Nat) (back : List α) :
    words blank (List.replicate n blank ++ back) = words blank back := by
  induction n with
  | zero => rfl
  | succ n ih => rw [List.replicate_succ, List.cons_append, words_cons, ih]

theorem words_flatMap {f : ι → List α} (front : List α) (is : List ι)
    (h : ∀ i, ∃ back, f i = blank :: back) :
    words blank (front ++ is.flatMap f) =
      words blank front ++ is.flatMap fun i => words blank (f i) := by
  induction is generalizing front with
  | nil => simp only [List.flatMap_nil, List.append_nil]
  | cons i is ih =>
    obtain ⟨back, hi⟩ := h i
    rw [List.flatMap_cons, List.flatMap_cons, ← List.append_assoc, ih, hi, words_append_cons,
      words_cons, List.append_assoc]

theorem splitOn_lines {newline : α} {lines : List (List α)} (h : ∀ line ∈ lines, newline ∉ line) :
    (lines.flatMap (· ++ [newline])).splitOn newline = lines ++ [[]] := by
  induction lines with
  | nil => rfl
  | cons line lines ih =>
    rw [List.flatMap_cons, List.append_assoc, List.singleton_append,
      List.splitOn_append_cons_self_of_not_mem (h line List.mem_cons_self),
      ih fun l hl => h l (List.mem_cons_of_mem _ hl), List.cons_append]

end Words

section Gaps

variable {α : Type} {separator : α}

theorem mem_intercalate {lists : List (List α)} {a : α}
    (h : a ∈ [separator].intercalate lists) : a = separator ∨ ∃ field ∈ lists, a ∈ field := by
  induction lists with
  | nil => exact absurd h List.not_mem_nil
  | cons field fields ih =>
    cases fields with
    | nil =>
      rw [List.intercalate_singleton] at h
      exact .inr ⟨field, List.mem_cons_self, h⟩
    | cons next fields =>
      rw [List.intercalate_cons_cons] at h
      rcases List.mem_append.mp h with h | h
      · rcases List.mem_append.mp h with h | h
        · exact .inr ⟨field, List.mem_cons_self, h⟩
        · exact .inl (List.mem_singleton.mp h)
      · rcases ih h with h | ⟨other, hmem, hc⟩
        · exact .inl h
        · exact .inr ⟨other, List.mem_cons_of_mem _ hmem, hc⟩

theorem takeWhile_gap {left : List (List α)} (h : [] ∉ left) (back : List (List α)) :
    ((if left = [] then [[]] else left) ++ [] :: back).takeWhile (fun field => !field.isEmpty) =
      left := by
  split
  · rename_i hnil
    subst hnil
    rfl
  · rw [List.takeWhile_append_of_pos, List.takeWhile_cons_of_neg, List.append_nil]
    · exact Bool.false_ne_true
    · intro field hfield
      have hne : field ≠ [] := fun hc => h (hc ▸ hfield)
      simpa using hne

variable [DecidableEq α]

theorem splitOn_fields {fields : List (List α)} (h : ∀ field ∈ fields, separator ∉ field) :
    ([separator].intercalate fields).splitOn separator =
      if fields = [] then [[]] else fields := by
  split
  · rename_i hnil
    subst hnil
    exact List.splitOn_nil separator
  · rename_i hne
    exact List.splitOn_intercalate separator h hne

/-- Read fields of which a run of `filler` may be left out, an empty field in place of it. -/
def restore (n : Nat) (filler : List α) (fields : List (List α)) : List (List α) :=
  if [] ∈ fields then
    let left := fields.takeWhile fun field => !field.isEmpty
    let right := (fields.reverse.takeWhile fun field => !field.isEmpty).reverse
    left ++ List.replicate (n - left.length - right.length) filler ++ right
  else fields

/-- A run that is left out is known from the number of fields. -/
theorem restore_gap {left right : List (List α)} (hleft : [] ∉ left) (hright : [] ∉ right)
    (hn : left.length + gap + right.length = n) :
    restore n filler ((if left = [] then [[]] else left) ++
      ([] :: if right = [] then [[]] else right)) = left ++ List.replicate gap filler ++ right := by
  have hreverse : ((if left = [] then [[]] else left) ++
      ([] :: if right = [] then [[]] else right)).reverse =
      (if right.reverse = [] then [[]] else right.reverse) ++
        [] :: (if left = [] then [[]] else left).reverse := by
    rw [List.reverse_append, List.reverse_cons, List.append_assoc, List.singleton_append]
    congr 1
    by_cases hnil : right = []
    · subst hnil
      rfl
    · rw [if_neg hnil, if_neg (fun hc => hnil (List.reverse_eq_nil_iff.mp hc))]
  have hback : [] ∉ right.reverse := fun hc => hright (List.mem_reverse.mp hc)
  rw [restore, if_pos (List.mem_append_right _ List.mem_cons_self), takeWhile_gap hleft, hreverse,
    takeWhile_gap hback, List.reverse_reverse]
  dsimp only
  have hgap : n - left.length - right.length = gap := by omega
  rw [hgap]

theorem restore_full {fields : List (List α)} (h : [] ∉ fields) :
    restore n filler fields = fields := if_neg h

end Gaps

end Library
