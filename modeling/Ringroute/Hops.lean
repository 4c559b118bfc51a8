import Ringroute.History
import Ringroute.Library.Grouping

namespace Ringroute
open Library
set_option autoImplicit true

section Range

theorem mem_hopRange {first last t : UInt8} :
    t ∈ hopRange first last ↔ first.toNat ≤ t.toNat ∧ t.toNat ≤ last.toNat := by
  have hlast : last.toNat < 256 := last.toNat_lt
  rw [hopRange, List.mem_map]
  constructor
  · rintro ⟨n, hn, rfl⟩
    have hn := List.mem_range'_1.mp hn
    rw [UInt8.toNat_ofNat_of_lt' (by change n < 256; omega)]
    omega
  · rintro ⟨hfirst, hle⟩
    exact ⟨t.toNat, List.mem_range'_1.mpr ⟨hfirst, by omega⟩, UInt8.ofNat_toNat⟩

theorem nodup_hopRange (first last : UInt8) : (hopRange first last).Nodup := by
  have hlast : last.toNat < 256 := last.toNat_lt
  refine List.Nodup.map_on ?_ List.nodup_range'
  intro a ha b hb he
  have ha := List.mem_range'_1.mp ha
  have hb := List.mem_range'_1.mp hb
  have he := congrArg UInt8.toNat he
  rwa [UInt8.toNat_ofNat_of_lt' (by change a < 256; omega),
    UInt8.toNat_ofNat_of_lt' (by change b < 256; omega)] at he

theorem hopRange_getElem? {first last t : UInt8} (h : (hopRange first last)[k]? = some t) :
    k < last.toNat + 1 - first.toNat ∧ t.toNat = first.toNat + k := by
  have hlast : last.toNat < 256 := last.toNat_lt
  have hk := (List.getElem?_eq_some_iff.mp h).choose
  rw [length_hopRange] at hk
  rw [hopRange, List.getElem?_map, List.getElem?_range' hk, Option.map_some, Option.some_inj] at h
  refine ⟨hk, ?_⟩
  rw [← h, UInt8.toNat_ofNat_of_lt' (by change _ < 256; omega)]
  omega

theorem hopRange_split {first last t : UInt8} (h : hopRange first last = front ++ t :: back) :
    front ++ [t] = hopRange first t := by
  have hget : (hopRange first last)[front.length]? = some t := by
    rw [h, List.getElem?_append_right (Nat.le_refl _), Nat.sub_self]
    rfl
  obtain ⟨hlt, ht⟩ := hopRange_getElem? hget
  have hcount : t.toNat + 1 - first.toNat = front.length + 1 := by omega
  have hsplit : hopRange first last = (front ++ [t]) ++ back := h.trans (List.append_cons ..)
  have htake := congrArg (List.take (front ++ [t]).length) hsplit
  rw [List.take_left, List.length_append, List.length_singleton, hopRange, ← List.map_take,
    List.take_range'_of_length_ge (by omega)] at htake
  rw [hopRange, hcount, htake]

theorem hopRange_mem {first last t : UInt8} (h : t ∈ hopRange first last) :
    ∃ front back, hopRange first last = front ++ t :: back ∧ front ++ [t] = hopRange first t ∧
      t ∉ front := by
  obtain ⟨front, back, he⟩ := List.append_of_mem h
  refine ⟨front, back, he, hopRange_split he, ?_⟩
  intro hmem
  have hnodup := nodup_hopRange first last
  rw [he] at hnodup
  exact (List.nodup_append.mp hnodup).2.2 t hmem t List.mem_cons_self rfl

end Range

/-- A probe of the hop has a result. -/
def HopAnswered (probes : List Probe) (t : UInt8) : Prop :=
  ∃ probe ∈ probes, probe.ttl = t ∧ probe.result ≠ none

/-- A probe of the hop has a result that ends the trace. -/
def HopTerminates (probes : List Probe) (t : UInt8) : Prop :=
  ∃ probe ∈ probes, probe.ttl = t ∧
    ∃ result, probe.result = some result ∧ result.kind.terminatesTrace = true

theorem HopTerminates.answered (h : HopTerminates probes t) : HopAnswered probes t := by
  obtain ⟨probe, hmem, ht, result, hresult, _⟩ := h
  exact ⟨probe, hmem, ht, by rw [hresult]; exact Option.some_ne_none _⟩

/-- The probes of one hop. -/
def hopAt (probes : List Probe) (t : UInt8) : List Probe := probes.filter (·.ttl == t)

theorem mem_hopAt : probe ∈ hopAt probes t ↔ probe ∈ probes ∧ probe.ttl = t := by
  rw [hopAt, List.mem_filter, beq_iff_eq]

theorem hopAt_answered : (hopAt probes t).any Probe.answered = true ↔ HopAnswered probes t := by
  rw [List.any_eq_true]
  constructor
  · rintro ⟨probe, hmem, ha⟩
    obtain ⟨hmem, ht⟩ := mem_hopAt.mp hmem
    exact ⟨probe, hmem, ht, Option.isSome_iff_ne_none.mp ha⟩
  · rintro ⟨probe, hmem, ht, ha⟩
    exact ⟨probe, mem_hopAt.mpr ⟨hmem, ht⟩, Option.isSome_iff_ne_none.mpr ha⟩

theorem terminates_iff : terminates probes = true ↔
    ∃ probe ∈ probes, ∃ result, probe.result = some result ∧
      result.kind.terminatesTrace = true := by
  rw [terminates, List.any_eq_true]
  constructor
  · rintro ⟨result, hmem, hkind⟩
    obtain ⟨probe, hprobe, hresult⟩ := List.mem_filterMap.mp hmem
    exact ⟨probe, hprobe, result, hresult, hkind⟩
  · rintro ⟨probe, hprobe, result, hresult, hkind⟩
    exact ⟨result, List.mem_filterMap.mpr ⟨probe, hprobe, hresult⟩, hkind⟩

theorem hopAt_terminates : terminates (hopAt probes t) = true ↔ HopTerminates probes t := by
  rw [terminates_iff]
  constructor
  · rintro ⟨probe, hmem, hresult⟩
    obtain ⟨hmem, ht⟩ := mem_hopAt.mp hmem
    exact ⟨probe, hmem, ht, hresult⟩
  · rintro ⟨probe, hmem, ht, hresult⟩
    exact ⟨probe, mem_hopAt.mpr ⟨hmem, ht⟩, hresult⟩

theorem terminates_flatten {hops : List (List Probe)} :
    terminates hops.flatten = true ↔ ∃ hop ∈ hops, terminates hop = true := by
  rw [terminates_iff]
  constructor
  · rintro ⟨probe, hmem, hresult⟩
    obtain ⟨hop, hhop, hmem⟩ := List.mem_flatten.mp hmem
    exact ⟨hop, hhop, terminates_iff.mpr ⟨probe, hmem, hresult⟩⟩
  · rintro ⟨hop, hhop, h⟩
    obtain ⟨probe, hmem, hresult⟩ := terminates_iff.mp h
    exact ⟨probe, List.mem_flatten.mpr ⟨hop, hhop, hmem⟩, hresult⟩

/-- The first hop with a result that ends the trace, when it and all before it are answered. -/
structure Terminated (probes : List Probe) (first t : UInt8) : Prop where
  terminates : HopTerminates probes t
  earliest : ∀ s ∈ hopRange first t, s ≠ t → ¬ HopTerminates probes s
  answered : ∀ s ∈ hopRange first t, HopAnswered probes s

/-- Probes whose ttls are those `run` sets up. -/
def Laid (first last : UInt8) (count : UInt16) (probes : List Probe) : Prop :=
  probes.map Probe.ttl = (hopRange first last).flatMap fun ttl => List.replicate count.toNat ttl

section Laid

variable {first last : UInt8} {count : UInt16} {probes : List Probe}

theorem initialProbes_laid : Laid first last count (initialProbes first last count) := by
  rw [Laid, initialProbes, List.map_map]
  exact List.map_id _

theorem Laid.hopsOf (h : Laid first last count probes) (hcount : 0 < count.toNat) :
    hopsOf probes = (hopRange first last).map (hopAt probes) :=
  splitBy_blocks hcount (nodup_hopRange first last) h

theorem Laid.nil (h : Laid first last count probes) (hcount : count.toNat = 0) : probes = [] := by
  rw [Laid, hcount] at h
  refine List.map_eq_nil_iff.mp (h.trans (List.flatMap_eq_nil_iff.mpr fun _ _ => rfl))

theorem Laid.reachedTarget_iff (h : Laid first last count probes) (hcount : 0 < count.toNat) :
    reachedTarget probes = true ↔
      ∃ t ∈ (hopRange first last).takeWhile fun t => (hopAt probes t).any Probe.answered,
        terminates (hopAt probes t) = true := by
  rw [reachedTarget, terminates_flatten, h.hopsOf hcount, List.takeWhile_map]
  constructor
  · rintro ⟨hop, hmem, hterm⟩
    obtain ⟨t, ht, rfl⟩ := List.mem_map.mp hmem
    exact ⟨t, ht, hterm⟩
  · rintro ⟨t, ht, hterm⟩
    exact ⟨_, List.mem_map_of_mem ht, hterm⟩

theorem Laid.count_pos (h : Laid first last count probes) (hne : probes ≠ []) :
    0 < count.toNat := Nat.pos_of_ne_zero fun hcount => hne (h.nil hcount)

/-- The loop finds the trace done at a hop that the answered ones lead up to. -/
theorem Laid.terminated (h : Laid first last count probes) (hdone : reachedTarget probes = true) :
    ∃ t ∈ hopRange first last, Terminated probes first t := by
  have hne : probes ≠ [] := by
    rintro rfl
    cases hdone
  obtain ⟨front, t, back, he, hfront, hanswered, hterm⟩ :=
    exists_first_of_takeWhile (q := fun t => terminates (hopAt probes t))
      ((h.reachedTarget_iff (h.count_pos hne)).mp hdone)
  refine ⟨t, he ▸ List.mem_append_right _ List.mem_cons_self, hopAt_terminates.mp hterm, ?_, ?_⟩
  · intro s hs hne hterm
    rw [← hopRange_split he] at hs
    rcases List.mem_append.mp hs with hs | hs
    · exact Bool.eq_false_iff.mp (hfront s hs).2 (hopAt_terminates.mpr hterm)
    · exact hne (List.mem_singleton.mp hs)
  · intro s hs
    rw [← hopRange_split he] at hs
    rcases List.mem_append.mp hs with hs | hs
    · exact hopAt_answered.mp (hfront s hs).1
    · exact List.mem_singleton.mp hs ▸ hopAt_answered.mp hanswered

theorem Laid.reachedTarget_of (h : Laid first last count probes) (hmem : t ∈ hopRange first last)
    (hterm : HopTerminates probes t) (hanswered : ∀ s ∈ hopRange first t, HopAnswered probes s) :
    reachedTarget probes = true := by
  obtain ⟨front, back, he, hrange, _⟩ := hopRange_mem hmem
  have hne : probes ≠ [] := by
    rintro rfl
    obtain ⟨probe, hprobe, _⟩ := hterm
    exact List.not_mem_nil hprobe
  refine (h.reachedTarget_iff (h.count_pos hne)).mpr ⟨t, ?_, hopAt_terminates.mpr hterm⟩
  rw [he]
  refine mem_takeWhile_append ?_ (hopAt_answered.mpr hterm.answered)
  intro s hs
  exact hopAt_answered.mpr (hanswered s (hrange ▸ List.mem_append_left _ hs))

end Laid

end Ringroute
