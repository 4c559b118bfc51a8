import Ringroute.FirstBatch
import Ringroute.PerProbe

namespace Ringroute
open Library
set_option autoImplicit true

/-- A request that is not a read, and so completes once. -/
def Sqe.once? (entry : Sqe) : Option Sqe :=
  match entry.reader? with
  | some _ => none
  | none => some entry

@[simp] theorem Multishot.entry_once? (m : Multishot) : m.entry.once? = none := rfl

section Requests

variable {host : Host} {uring : RecvMsgOutApi host} {slab : SlabApi Outgoing}
  {readers : List Multishot}

theorem filterMap_once_entries (readers : List Multishot) :
    (readers.map Multishot.entry).filterMap Sqe.once? = [] := by
  rw [List.filterMap_map]
  exact List.filterMap_eq_nil_iff.mpr fun _ _ => rfl

theorem filterMap_once_writes (pending : List (Nat × Outgoing)) :
    (writesOf pending).filterMap Sqe.once? = writesOf pending := by
  rw [writesOf, List.filterMap_map]
  exact List.filterMap_eq_map_iff_forall_eq_some.mpr fun _ _ => rfl

theorem requests_perm {os : List Sqe} (h : ∀ entry ∈ os, entry.Request readers n) :
    os.Perm ((os.filterMap Sqe.reader?).map Multishot.entry ++ os.filterMap Sqe.once?) := by
  induction os with
  | nil => exact .refl _
  | cons entry os ih =>
    have ih := ih fun e he => h e (List.mem_cons_of_mem _ he)
    cases h entry List.mem_cons_self with
    | @read m => exact ih.cons _
    | @write k o =>
      refine (ih.cons _).trans ?_
      exact List.perm_middle.symm
    | @timeout d =>
      refine (ih.cons _).trans ?_
      exact List.perm_middle.symm

theorem Step.no_timeout {w w' : World slab} (h : Step uring readers w l w')
    (hs : Sound readers w.run w.outstanding) :
    ∀ c ∈ completions [l], ∀ d, c.1 ≠ timeoutEntry d := by
  cases h with
  | submit => exact fun c hc => absurd hc List.not_mem_nil
  | busy => exact fun c hc => absurd hc List.not_mem_nil
  | @complete st event st' failed front entry back tag hok =>
    intro c hc
    cases List.mem_singleton.mp hc
    have hs := hs.perm (outstanding_complete st .draining front back entry)
    exact (hs.completion_ok tag hok).1
  | drained => exact fun c hc => absurd hc List.not_mem_nil

end Requests

namespace RunArgs

variable {host : Host} {uring : RecvMsgOutApi host} {slab : SlabApi Outgoing} {args : RunArgs}

theorem Reaches.no_timeout {w : World slab} (h : args.Reaches uring labels w) :
    ∀ c ∈ completions labels, ∀ d, c.1 ≠ timeoutEntry d := by
  obtain ⟨st, hstart, hpath⟩ := h
  refine hpath.history (I := fun ls _ => ∀ c ∈ completions ls, ∀ d, c.1 ≠ timeoutEntry d)
    (fun c hc => absurd hc List.not_mem_nil) ?_
  intro ls t l u hls hno hstep c hc
  have ht : args.Reaches uring ls t := ⟨st, hstart, hls⟩
  rw [completions_append] at hc
  rcases List.mem_append.mp hc with hc | hc
  · exact hno c hc
  · exact hstep.no_timeout ht.invariant.sound c hc

theorem Reaches.once {w : World slab} (h : args.Reaches uring labels w) :
    ∃ writes, (w.outstanding.filterMap Sqe.once?).Perm (writes ++ [timeoutEntry args.timeout]) ∧
      ∀ entry ∈ writes, ∃ k o, entry = writeEntry k o := by
  obtain ⟨st, hstart, hperm⟩ := h.processes.conserved Multishot.entry_once?
  obtain ⟨pending, hready⟩ := hstart.ready
  rw [hready.outstanding, List.filterMap_append, List.filterMap_append, filterMap_once_entries,
    filterMap_once_writes, List.nil_append] at hperm
  have hlast : [timeoutEntry args.timeout].filterMap Sqe.once? = [timeoutEntry args.timeout] := rfl
  rw [hlast] at hperm
  have hmem : timeoutEntry args.timeout ∈ (completions labels).filterMap (fun c => c.1.once?) ++
      w.outstanding.filterMap Sqe.once? :=
    hperm.mem_iff.mpr (List.mem_append_right _ List.mem_cons_self)
  have hleft : timeoutEntry args.timeout ∈ w.outstanding.filterMap Sqe.once? := by
    refine (List.mem_append.mp hmem).resolve_left ?_
    intro hdone
    obtain ⟨c, hc, honce⟩ := List.mem_filterMap.mp hdone
    simp only [Sqe.once?] at honce
    split at honce
    · cases honce
    · exact h.no_timeout c hc _ (Option.some.inj honce)
  obtain ⟨front, back, hsplit⟩ := List.append_of_mem hleft
  have hfirst : (front ++ timeoutEntry args.timeout :: back).Perm
      ((front ++ back) ++ [timeoutEntry args.timeout]) :=
    List.perm_middle.trans (List.perm_append_singleton _ _).symm
  refine ⟨front ++ back, hsplit ▸ hfirst, ?_⟩
  rw [hsplit] at hperm
  have hwrites := (hfirst.symm.append_left _).trans hperm
  rw [← List.append_assoc] at hwrites
  have hcancel := ((List.perm_append_singleton _ _).symm.trans hwrites).trans
    (List.perm_append_singleton _ _)
  intro entry he
  have hentry := (List.perm_cons _).mp hcancel |>.mem_iff.mp (List.mem_append_right _ he)
  obtain ⟨⟨k, o⟩, _, rfl⟩ := List.mem_map.mp hentry
  exact ⟨k, o, rfl⟩

theorem Reaches.outstanding_perm {w : World slab} (h : args.Reaches uring labels w) :
    ∃ writes, w.outstanding.Perm
        ((args.readers host).map Multishot.entry ++ (writes ++ [timeoutEntry args.timeout])) ∧
      (∀ entry ∈ writes, ∃ k o, entry = writeEntry k o) ∧
      (written (completions labels) ++ writes.filterMap Sqe.probe?).Perm
        (List.range args.probeCount) := by
  obtain ⟨writes, honce, hwrites⟩ := h.once
  have hs := h.invariant.sound
  have hout := (requests_perm hs.request).trans ((hs.reads.map Multishot.entry).append honce)
  refine ⟨writes, hout, hwrites, ?_⟩
  have hprobes := hout.filterMap Sqe.probe?
  rw [List.filterMap_append, List.filterMap_append, filterMap_probe_entries] at hprobes
  have hlast : [timeoutEntry args.timeout].filterMap Sqe.probe? = [] := rfl
  rw [hlast, List.append_nil, List.nil_append] at hprobes
  exact (hprobes.symm.append_left _).trans h.processes.writes

theorem Reaches.submits {w : World slab} (h : args.Reaches uring labels w) :
    ∃ more, ∃ w' : World slab, completions more = [] ∧ args.Reaches uring (labels ++ more) w' ∧
      w'.phase = .draining ∧ w'.run.probes = w.run.probes ∧
      ∀ entry ∈ w.outstanding, entry ∈ w'.inFlight := by
  obtain ⟨st, phase, inFlight⟩ := w
  cases phase with
  | submitting =>
    refine ⟨[.submit .ok], _, rfl, h.step .submit, rfl, rfl, ?_⟩
    intro entry he
    have hpushed : st.sq.pushed = [] := h.invariant.idle rfl
    simp only [World.outstanding, SubmissionRing.waiting, hpushed, List.append_nil] at he
    exact (List.mem_append.mp he).elim (List.mem_append_right _) (List.mem_append_left _)
  | draining =>
    refine ⟨[.drained, .submit .ok], ⟨{ st with sq := st.sq.sync.consume }, .draining,
      inFlight ++ st.sq.sync.published⟩, rfl, ?_, rfl, rfl, ?_⟩
    · rw [List.append_cons]
      exact (h.step .drained).step .submit
    · intro entry he
      rw [← outstanding_drained] at he
      simp only [World.outstanding, SubmissionRing.waiting, SubmissionRing.sync,
        List.append_nil] at he
      exact (List.mem_append.mp he).elim (List.mem_append_right _) (List.mem_append_left _)

/-- A run always has something to wait for, and an end to come to. What it has outstanding is each
read once, the writes of the probes not yet completed, once each, and the timeout, whose completion
it has not met; and with no other completion than that, whatever its result, it returns the probes
as they stand. -/
theorem Reaches.can_end {w : World slab} (h : args.Reaches uring labels w) :
    (∃ writes, w.outstanding.Perm
        ((args.readers host).map Multishot.entry ++ (writes ++ [timeoutEntry args.timeout])) ∧
      (∀ entry ∈ writes, ∃ k o, entry = writeEntry k o) ∧
      (written (completions labels) ++ writes.filterMap Sqe.probe?).Perm
        (List.range args.probeCount)) ∧
    w.outstanding.length + (written (completions labels)).length = args.probeCount + 3 ∧
    (∀ c ∈ completions labels, ∀ d, c.1 ≠ timeoutEntry d) ∧
    ∃ more, ∃ w' : World slab, completions more = [] ∧ args.Reaches uring (labels ++ more) w' ∧
      ∀ event : Event, event.cqe.userData = (timeoutEntry args.timeout).userData →
        Exits uring (args.readers host) w' (.complete (timeoutEntry args.timeout) event)
          ⟨.ok w.run.probes, w'.run⟩ := by
  obtain ⟨writes, hperm, hwrites, hprobes⟩ := h.outstanding_perm
  refine ⟨⟨writes, hperm, hwrites, hprobes⟩, ?_, h.no_timeout, ?_⟩
  · have hlen := hperm.length_eq
    have hall := hprobes.length_eq
    have heach : (writes.filterMap Sqe.probe?).length = writes.length := by
      rw [List.filterMap_length_eq_length]
      intro entry he
      obtain ⟨k, o, rfl⟩ := hwrites entry he
      rfl
    have hreaders : (args.readers host).length = 2 := length_readersOf
    rw [List.length_append, List.length_append, List.length_map, List.length_singleton,
      hreaders] at hlen
    rw [List.length_append, List.length_range, heach] at hall
    omega
  · obtain ⟨more, w', hnone, hreach, hphase, hkept, hflight⟩ := h.submits
    have htimeout : timeoutEntry args.timeout ∈ w.outstanding :=
      hperm.mem_iff.mpr (List.mem_append_right _ (List.mem_append_right _ List.mem_cons_self))
    obtain ⟨i, hi⟩ := List.mem_iff_getElem?.mp (hflight _ htimeout)
    refine ⟨more, w', hnone, hreach, ?_⟩
    intro event tag
    rw [← hkept]
    exact .at i hphase hi tag (onCompletion_timeout tag)

/-- The trace of the loopback address with one of its two probes sent has four requests to wait
for. -/
theorem can_end_loopback :
    ∃ labels, ∃ w : World (.vec Outgoing), (loopback 1 2 1).Reaches (.layout .x86_64) labels w ∧
      w.outstanding.length = 4 := by
  obtain ⟨k, o, ho, ⟨w, h, _⟩, _⟩ := loopback_orders 7 9
  have hwritten : written (completions [.submit .ok, .complete (writeEntry k o) (sent k o 7),
      .complete echoReader.entry (echo 9)]) = [0] := by
    simp only [completions, written, List.filterMap_cons, writeEntry_probe?, ho,
      Multishot.entry_probe?, List.filterMap_nil]
  have hlen := h.can_end.2.1
  rw [hwritten] at hlen
  exact ⟨_, w, h, Nat.add_right_cancel hlen⟩

end RunArgs

end Ringroute
