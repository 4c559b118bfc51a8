import Ringroute.Args

namespace Ringroute
open Library
set_option autoImplicit true

/-- The number of the probe a write sends. -/
def Sqe.probe? (entry : Sqe) : Option Nat :=
  match entry.opcode with
  | .sendMsg outgoing => some outgoing.probe.index
  | _ => none

@[simp] theorem Multishot.entry_probe? (m : Multishot) : m.entry.probe? = none := rfl
@[simp] theorem writeEntry_probe? : (writeEntry k o).probe? = some o.probe.index := rfl

/-- The probes whose writes are among the completions, in that order. -/
def written (cs : List (Sqe × Event)) : List Nat := cs.filterMap fun c => c.1.probe?

theorem written_append : written (cs ++ ds) = written cs ++ written ds := List.filterMap_append

theorem written_cons_some (h : entry.probe? = some i) :
    written ((entry, event) :: cs) = i :: written cs := List.filterMap_cons_some h

theorem written_cons_none (h : entry.probe? = none) :
    written ((entry, event) :: cs) = written cs := List.filterMap_cons_none h

/-- Every send of the trace is among the completions met. -/
def RunArgs.AllSent (args : RunArgs) (labels : List Label) : Prop :=
  ∀ i < args.probeCount, i ∈ written (completions labels)

theorem probe?_eq_none {entry : Sqe} : entry.probe? = none ↔ entry.pending? = none := by
  unfold Sqe.probe? Sqe.pending?
  cases entry.opcode <;> simp

theorem written_snoc_none (labels : List Label) {entry : Sqe} (h : entry.probe? = none) :
    written (completions (labels ++ [.complete entry event])) = written (completions labels) := by
  rw [completions_append, written_append]
  simp only [completions, written, List.filterMap_cons, h, List.filterMap_nil, List.append_nil]

section History

variable {host : Host} {uring : RecvMsgOutApi host} {slab : SlabApi Outgoing} {args : RunArgs}

theorem filterMap_probe_entries (readers : List Multishot) :
    (readers.map Multishot.entry).filterMap Sqe.probe? = [] := by
  rw [List.filterMap_map]
  exact List.filterMap_eq_nil_iff.mpr fun _ _ => rfl

theorem filterMap_probe_writes (pending : List (Nat × Outgoing)) :
    (writesOf pending).filterMap Sqe.probe? = (pending.map Prod.snd).map (·.probe.index) := by
  rw [writesOf, List.filterMap_map, List.map_map]
  exact List.filterMap_eq_map_iff_forall_eq_some.mpr fun _ _ => rfl

theorem index_outgoingOf (probes : List Probe) (h : probes.length < 2 ^ 16) :
    (probes.zipIdx.map (outgoingOf host method)).map (·.probe.index) =
      List.range probes.length := by
  rw [List.map_map, List.range_eq_range', ← List.zipIdx_map_snd]
  apply List.map_congr_left
  intro ⟨probe, i⟩ hmem
  have hi := (List.mem_zipIdx hmem).2.1
  exact UInt16.toNat_ofNat_of_lt' (by
    change i < 2 ^ 16
    omega)

theorem Ready.writes (h : Ready host slab method first last timeout count st pending) :
    (World.start st).outstanding.filterMap Sqe.probe? = List.range st.probes.length := by
  rw [h.outstanding, List.filterMap_append, List.filterMap_append, filterMap_probe_entries,
    filterMap_probe_writes, h.outgoing, index_outgoingOf st.probes h.length_lt]
  exact List.append_nil _

section Conserved

variable {f : Sqe → Option β}

theorem filterMap_request (hf : ∀ m : Multishot, f m.entry = none) {readers : List Multishot}
    (h : Sqe.Request readers n entry) (event : Event) :
    (entry.remaining event ++ entry.rearmed event).filterMap f = [] := by
  cases h with
  | @read m =>
    have he := read_outstanding m event []
    rw [List.append_nil] at he
    rw [he]
    exact List.filterMap_eq_nil_iff.mpr fun e hmem => List.mem_singleton.mp hmem ▸ hf m
  | write => rfl
  | timeout => rfl

/-- What is not read is outstanding or completed, and that once: what a step takes from the one it
adds to the other. -/
theorem Proceeds.conserved (hf : ∀ m : Multishot, f m.entry = none) {w w' : World slab}
    {readers : List Multishot} (h : Proceeds uring readers w l w')
    (hs : Sound readers w.run w.outstanding)
    (hw : ((completions ls).filterMap (f ·.1) ++ w.outstanding.filterMap f).Perm ns) :
    ((completions (ls ++ [l])).filterMap (f ·.1) ++ w'.outstanding.filterMap f).Perm ns := by
  rw [completions_append, List.filterMap_append]
  cases h with
  | @submit st inFlight =>
    have hout := (outstanding_submit st inFlight).filterMap f
    rw [List.append_assoc]
    exact (hout.symm.append_left _).trans hw
  | busy =>
    rw [List.append_assoc]
    exact hw
  | @complete st event st' failed front entry back tag hok =>
    have hbefore := outstanding_complete st .draining front back entry
    have hs : Sound readers st _ := hs.perm hbefore
    have hreq := hs.request entry List.mem_cons_self
    have hafter := outstanding_completed .draining front back (hs.processed tag hok).1
    have hkept := hafter.filterMap f
    rw [List.filterMap_append, filterMap_request hf hreq event, List.nil_append] at hkept
    have hone : (completions [.complete entry event]).filterMap (f ·.1) = (f entry).toList := by
      simp only [completions, List.filterMap_cons, List.filterMap_nil]
      cases f entry <;> rfl
    have hcons : (entry :: (st.sq.waiting ++ (front ++ back))).filterMap f =
        (f entry).toList ++ (st.sq.waiting ++ (front ++ back)).filterMap f := by
      rw [List.filterMap_cons]
      cases f entry <;> rfl
    have hold := hbefore.filterMap f
    rw [hcons] at hold
    rw [hone, List.append_assoc]
    exact ((hkept.append_left _).append_left _).trans ((hold.symm.append_left _).trans hw)
  | @drained st inFlight =>
    rw [outstanding_drained, List.append_assoc]
    exact hw

theorem RunArgs.Processes.conserved (hf : ∀ m : Multishot, f m.entry = none) {w : World slab}
    (h : args.Processes uring labels w) :
    ∃ st : RunState slab, args.Starts host st ∧
      ((completions labels).filterMap (f ·.1) ++ w.outstanding.filterMap f).Perm
        ((World.start st).outstanding.filterMap f) := by
  obtain ⟨st, hstart, hpath⟩ := h
  refine ⟨st, hstart, hpath.history (I := fun ls w =>
    ((completions ls).filterMap (f ·.1) ++ w.outstanding.filterMap f).Perm
      ((World.start st).outstanding.filterMap f)) ?_ ?_⟩
  · exact .refl _
  · intro ls t l u hls hw hstep
    have hi := RunArgs.Processes.invariant ⟨st, hstart, hls⟩
    exact hstep.conserved hf hi.sound hw

end Conserved

namespace RunArgs

theorem Processes.writes {w : World slab} (h : args.Processes uring labels w) :
    (written (completions labels) ++ w.outstanding.filterMap Sqe.probe?).Perm
      (List.range args.probeCount) := by
  obtain ⟨st, hstart, hperm⟩ := h.conserved Multishot.entry_probe?
  obtain ⟨pending, hready⟩ := hstart.ready
  have hprobes : st.probes = args.initialProbes := hready.probes
  rw [hready.writes, hprobes, length_initialProbes] at hperm
  exact hperm

theorem Processes.set_up {w : World slab} (h : args.Processes uring labels w)
    (hmem : (entry, event) ∈ completions labels) (hp : entry.probe? = some i) :
    ∃ st : RunState slab, args.Starts host st ∧ entry ∈ (World.start st).outstanding := by
  obtain ⟨st, hstart, hperm⟩ :=
    h.conserved (f := fun e : Sqe => e.probe?.map fun _ => e) fun m => rfl
  have hsent : entry ∈ (completions labels).filterMap fun c => c.1.probe?.map fun _ => c.1 :=
    List.mem_filterMap.mpr ⟨(entry, event), hmem, by rw [hp]; rfl⟩
  obtain ⟨e, he, hsome⟩ := List.mem_filterMap.mp (hperm.mem_iff.mp (List.mem_append_left _ hsent))
  obtain ⟨_, _, rfl⟩ := Option.map_eq_some_iff.mp hsome
  exact ⟨st, hstart, he⟩

/-- The slab is empty once every send of the trace has completed, and not before. -/
theorem Processes.isEmpty_sending_iff {w : World slab} (h : args.Processes uring labels w) :
    slab.isEmpty w.run.sending = true ↔ args.AllSent labels := by
  have hw := h.writes
  rw [h.invariant.sound.writes.isEmpty_iff, List.filterMap_eq_nil_iff]
  constructor
  · intro hnone i hi
    have hprobe : w.outstanding.filterMap Sqe.probe? = [] :=
      List.filterMap_eq_nil_iff.mpr fun e he => probe?_eq_none.mpr (hnone e he)
    rw [hprobe, List.append_nil] at hw
    exact hw.mem_iff.mpr (List.mem_range.mpr hi)
  · intro hall e he
    rw [← probe?_eq_none]
    cases hp : e.probe? with
    | none => rfl
    | some i =>
      have hmem : i ∈ w.outstanding.filterMap Sqe.probe? := List.mem_filterMap.mpr ⟨e, he, hp⟩
      have hlt := List.mem_range.mp (hw.mem_iff.mp (List.mem_append_right _ hmem))
      have hnodup := hw.nodup_iff.mpr List.nodup_range
      exact absurd rfl ((List.nodup_append.mp hnodup).2.2 i (hall i hlt) i hmem)

/-- A probe holds what the completions, in their order, have made of it. -/
theorem Processes.probes {w : World slab} (h : args.Processes uring labels w) (i : Nat) :
    w.run.probes[i]? = args.initialProbes[i]?.map fun probe =>
      (completions labels).foldl (Probe.after uring i) probe := by
  obtain ⟨st, hstart, hpath⟩ := h
  obtain ⟨pending, hready⟩ := hstart.ready
  refine hpath.history (I := fun ls w => w.run.probes[i]? = args.initialProbes[i]?.map fun probe =>
      (completions ls).foldl (Probe.after uring i) probe) ?_ ?_
  · change st.probes[i]? = _
    rw [hready.probes]
    exact Option.map_id_apply.symm
  · intro ls t l u hls hprobes hstep
    have hi := Processes.invariant ⟨st, hstart, hls⟩
    rw [completions_append]
    cases hstep with
    | submit => simpa only [completions, List.append_nil] using hprobes
    | busy => simpa only [completions, List.append_nil] using hprobes
    | @complete st event st' failed front entry back tag hok =>
      have hs := hi.sound_complete
      change st'.probes[i]? = _
      change st.probes[i]? = _ at hprobes
      rw [(hs.processed tag hok).1.probes, hprobes, Option.map_map]
      simp only [completions, List.foldl_append, List.foldl_cons, List.foldl_nil]
      rfl
    | drained => simpa only [completions, List.append_nil] using hprobes

end RunArgs

end History

end Ringroute
