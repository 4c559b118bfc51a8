import Mathlib.Data.List.Range

namespace Library
set_option autoImplicit true

/-- Where a packet ends up: each node takes one off the limit and keeps the packet if it takes the
last, and a packet that is past them all is delivered. -/
def forward (destination : α) : List α → Nat → α
  | [], _ => destination
  | node :: nodes, limit => if limit ≤ 1 then node else forward destination nodes (limit - 1)

theorem forward_past {nodes : List α} (h : nodes.length < limit) :
    forward destination nodes limit = destination := by
  induction nodes generalizing limit with
  | nil => rfl
  | cons node nodes ih =>
    rw [List.length_cons] at h
    rw [forward, if_neg (by omega)]
    exact ih (by omega)

theorem forward_short {nodes : List α} (hpos : 0 < nodes.length) (h : limit ≤ nodes.length) :
    nodes[limit - 1]? = some (forward destination nodes limit) := by
  induction nodes generalizing limit with
  | nil => exact absurd hpos (Nat.lt_irrefl 0)
  | cons node nodes ih =>
    rw [List.length_cons] at h
    rw [forward]
    split
    · have hfirst : limit - 1 = 0 := by omega
      rw [hfirst]
      rfl
    · obtain ⟨n, rfl⟩ : ∃ n, limit = n + 2 := ⟨limit - 2, by omega⟩
      exact @ih (n + 1) (by omega) (by omega)

/-- Packets with one more to take each time end up at the nodes in their order. -/
theorem map_forward {nodes : List α} (hk : k ≤ nodes.length) :
    (List.range' (k + 1) (nodes.length + 1 - k)).map (forward destination nodes) =
      (nodes ++ [destination]).drop k := by
  apply List.ext_getElem?
  intro i
  rw [List.getElem?_map, List.getElem?_drop]
  by_cases hi : i < nodes.length + 1 - k
  · rw [List.getElem?_range' hi, Option.map_some, Nat.one_mul]
    by_cases hshort : k + i < nodes.length
    · have hnode := @forward_short _ (k + 1 + i) destination nodes (by omega) (by omega)
      have hlimit : k + 1 + i - 1 = k + i := by omega
      rw [List.getElem?_append_left hshort, ← hnode, hlimit]
    · have hlast : k + i = nodes.length := by omega
      rw [hlast, List.getElem?_concat_length, forward_past (by omega)]
  · rw [List.getElem?_eq_none (by rw [List.length_range']; omega),
      List.getElem?_eq_none (by rw [List.length_append, List.length_singleton]; omega)]
    rfl

end Library
