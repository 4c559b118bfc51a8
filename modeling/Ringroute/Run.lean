import Ringroute.Completion
import Ringroute.Method.Icmp
import Ringroute.Setup

namespace Ringroute
open Library
set_option autoImplicit true

/-- The arguments of `run`. -/
structure RunArgs where
  method : Method
  first : UInt8
  last : UInt8
  timeout : Duration
  count : UInt16

namespace RunArgs

def setup (args : RunArgs) (env : Environment) (host : Host) (slab : SlabApi Outgoing) :
    Except Exit (RunState slab) :=
  Ringroute.setup host slab args.method env args.first args.last args.timeout args.count

/-- The loop is entered in a state, on some system and in some build. -/
def Starts (args : RunArgs) (host : Host) {slab : SlabApi Outgoing} (st : RunState slab) : Prop :=
  ∃ env, args.setup env host slab = .ok st

def readers (args : RunArgs) (host : Host) : List Multishot := readersOf host args.method

def initialProbes (args : RunArgs) : List Probe :=
  Ringroute.initialProbes args.first args.last args.count

def ringSize (args : RunArgs) : Nat := Ringroute.ringSize args.method args.initialProbes

variable {host : Host} (args : RunArgs) (uring : RecvMsgOutApi host) {slab : SlabApi Outgoing}

/-- A trace of the loopback address. -/
def loopback (first last : UInt8) (count : UInt16) : RunArgs where
  method := Icmp.method ⟨.v4 .localhost, 32⟩
  first := first
  last := last
  timeout := 5000000000
  count := count

/-- A run has met the labels and stands in the world, not having returned. -/
def Reaches (labels : List Label) (w : World slab) : Prop :=
  ∃ st, args.Starts host st ∧
    Path (Step uring (args.readers host)) (World.start st) labels w

/-- The same for a run that goes on processing completions where it could have returned. -/
def Processes (labels : List Label) (w : World slab) : Prop :=
  ∃ st, args.Starts host st ∧
    Path (Proceeds uring (args.readers host)) (World.start st) labels w

/-- A run has met the labels and returned on the last of them. -/
def Ends (labels : List Label) (returned : Returned slab) : Prop :=
  ∃ before label w, labels = before ++ [label] ∧ args.Reaches uring before w ∧
    Exits uring (args.readers host) w label returned

end RunArgs

section Lists

theorem filterMap_reader_entries (readers : List Multishot) :
    (readers.map Multishot.entry).filterMap Sqe.reader? = readers := by
  rw [List.filterMap_map]
  exact List.filterMap_some

theorem filterMap_pending_entries (readers : List Multishot) :
    (readers.map Multishot.entry).filterMap Sqe.pending? = [] := by
  rw [List.filterMap_map]
  exact List.filterMap_eq_nil_iff.mpr fun _ _ => rfl

theorem filterMap_reader_writes (pending : List (Nat × Outgoing)) :
    (writesOf pending).filterMap Sqe.reader? = [] := by
  rw [writesOf, List.filterMap_map]
  exact List.filterMap_eq_nil_iff.mpr fun _ _ => rfl

theorem filterMap_pending_writes {pending : List (Nat × Outgoing)}
    (h : ∀ e ∈ pending, e.1 < 2 ^ 16) : (writesOf pending).filterMap Sqe.pending? = pending := by
  induction pending with
  | nil => rfl
  | cons e es ih =>
    have ih := ih fun e' he' => h e' (List.mem_cons_of_mem _ he')
    simp only [writesOf] at ih
    rw [writesOf, List.map_cons, List.filterMap_cons, writeEntry_pending? (h e List.mem_cons_self)]
    simp only [ih]

end Lists

section Invariants

variable {host : Host} {uring : RecvMsgOutApi host} {slab : SlabApi Outgoing}
  {readers : List Multishot}

/-- What holds in every state of a run between two completions. -/
structure World.Invariant (readers : List Multishot) (n : Nat) (w : World slab) : Prop where
  sound : Sound readers w.run w.outstanding
  /-- Only reads are pushed by the loop. -/
  pushed : ∀ entry ∈ w.run.sq.pushed, ∃ m : Multishot, entry = m.entry
  idle : w.phase = .submitting → w.run.sq.pushed = []
  capacity : w.run.sq.capacity = nextPowerOfTwo n
  length_le : w.outstanding.length ≤ n
  /-- The entries the producer saw in the ring at its last `sync` were outstanding then. -/
  counts : ∃ stale, w.run.sq.Counts stale ∧ stale + w.run.sq.published.length ≤ n

theorem Ready.invariant (h : Ready host slab method first last timeout count st pending) :
    (World.start st).Invariant (readersOf host method) (ringSize method st.probes) := by
  have hcount : (World.start st).outstanding.length = ringSize method st.probes := by
    rw [← h.length_published, h.outstanding, h.published]
  refine ⟨⟨?_, ?_, ?_⟩, ?_, fun _ => h.pushed, h.capacity, Nat.le_of_eq hcount, 0, h.counts, ?_⟩
  · intro entry he
    rcases h.mem_outstanding he with ⟨m, hm, rfl⟩ | ⟨i, slot, outgoing, hi, rfl⟩ | rfl
    · exact .read (readersOf_getElem? hm)
    · obtain ⟨probe, hp, _, hindex⟩ := h.numbered hi
      apply Sqe.Request.write (h.keys_lt _ (List.mem_of_getElem? hi))
      rw [hindex]
      exact (List.getElem?_eq_some_iff.mp hp).choose
    · exact .timeout
  · rw [h.outstanding, List.filterMap_append, List.filterMap_append, filterMap_reader_entries,
      filterMap_reader_writes, List.append_nil]
    exact (List.append_nil _).symm ▸ .refl _
  · rw [h.outstanding, List.filterMap_append, List.filterMap_append, filterMap_pending_entries,
      filterMap_pending_writes h.keys_lt, List.nil_append]
    exact (List.append_nil _).symm ▸ h.holds
  · intro entry he
    change entry ∈ st.sq.pushed at he
    rw [h.pushed] at he
    exact absurd he List.not_mem_nil
  · rw [Nat.zero_add]
    exact Nat.le_of_eq h.length_published

theorem outstanding_complete (st : RunState slab) (phase : Phase) (front back : List Sqe)
    (entry : Sqe) :
    (World.outstanding ⟨st, phase, front ++ entry :: back⟩).Perm
      (entry :: (st.sq.waiting ++ (front ++ back))) := by
  simp only [World.outstanding]
  have hp : (st.sq.waiting ++ (front ++ entry :: back)).Perm
      (st.sq.waiting ++ (entry :: (front ++ back))) := List.Perm.append_left _ List.perm_middle
  exact hp.trans List.perm_middle

theorem World.Invariant.sound_complete {st : RunState slab}
    (hi : World.Invariant readers n ⟨st, .draining, front ++ entry :: back⟩) :
    Sound readers st (entry :: (st.sq.waiting ++ (front ++ back))) :=
  hi.sound.perm (outstanding_complete st .draining front back entry)

theorem outstanding_completed {st st' : RunState slab} (phase : Phase) (front back : List Sqe)
    (h : Handles uring st entry event st') :
    (World.outstanding ⟨st', phase,
      if entry.finished event then front ++ back else front ++ entry :: back⟩).Perm
      (entry.remaining event ++ entry.rearmed event ++ (st.sq.waiting ++ (front ++ back))) := by
  have hp := SubmissionRing.pushAll_pushed h.ring
  have hw : st'.sq.waiting = st.sq.waiting ++ entry.rearmed event := by
    simp only [SubmissionRing.waiting, hp.published_eq, hp.pushed_eq, List.append_assoc]
  have hflight : (if entry.finished event then front ++ back else front ++ entry :: back).Perm
      (entry.remaining event ++ (front ++ back)) := by
    simp only [Sqe.remaining]
    split
    · exact .refl _
    · exact List.perm_middle
  simp only [World.outstanding, hw]
  apply (List.Perm.append_left _ hflight).trans
  simp only [List.append_assoc]
  have hfirst := List.perm_append_comm_assoc (entry.rearmed event) (entry.remaining event)
    (front ++ back)
  have hsecond := List.perm_append_comm_assoc st.sq.waiting (entry.remaining event)
    (entry.rearmed event ++ (front ++ back))
  have hthird := List.perm_append_comm_assoc st.sq.waiting (entry.rearmed event) (front ++ back)
  exact (hfirst.append_left _).trans (hsecond.trans (hthird.append_left _))

theorem remaining_rearmed_length (entry : Sqe) (event : Event)
    (h : entry.Request readers n) :
    (entry.remaining event ++ entry.rearmed event).length ≤ 1 := by
  cases h with
  | @read m hm =>
    have he := congrArg List.length (read_outstanding m event [])
    rw [List.append_nil] at he
    exact Nat.le_of_eq he
  | write => exact Nat.zero_le _
  | timeout => exact Nat.zero_le _

theorem rearmed_entries {entry : Sqe} {event : Event} (h : entry.Request readers n) :
    ∀ e ∈ entry.rearmed event, ∃ m : Multishot, e = m.entry := by
  intro e he
  cases h with
  | @read m =>
    rw [Multishot.entry_rearmed] at he
    split at he
    · exact absurd he List.not_mem_nil
    · exact ⟨m, List.mem_singleton.mp he⟩
  | write => exact absurd he List.not_mem_nil
  | timeout => exact absurd he List.not_mem_nil

/-- The world after a completion of `entry`. -/
def World.completed (st' : RunState slab) (front back : List Sqe) (entry : Sqe) (event : Event) :
    World slab :=
  ⟨st', .draining, if entry.finished event then front ++ back else front ++ entry :: back⟩

theorem World.Invariant.completed {st st' : RunState slab}
    (hi : World.Invariant readers n ⟨st, .draining, front ++ entry :: back⟩)
    (hh : Handles uring st entry event st')
    (hs : Sound readers st'
      (entry.remaining event ++ entry.rearmed event ++ (st.sq.waiting ++ (front ++ back)))) :
    (World.completed st' front back entry event).Invariant readers n := by
  obtain ⟨stale, hc, hseen⟩ := hi.counts
  have hperm := outstanding_complete st .draining front back entry
  have hreq : entry.Request readers st.probes.length :=
    hi.sound.request entry (hperm.mem_iff.mpr List.mem_cons_self)
  have hout := outstanding_completed .draining front back hh
  have hp := SubmissionRing.pushAll_pushed hh.ring
  refine ⟨hs.perm hout.symm, ?_, Phase.noConfusion, hp.capacity_eq.trans hi.capacity, ?_,
    stale, hc.pushAll hh.ring, ?_⟩
  · intro e he
    change e ∈ st'.sq.pushed at he
    rw [hp.pushed_eq] at he
    rcases List.mem_append.mp he with he | he
    · exact hi.pushed e he
    · exact rearmed_entries hreq e he
  · have hle := hi.length_le
    have hone := remaining_rearmed_length entry event hreq
    rw [hperm.length_eq, List.length_cons] at hle
    rw [World.completed, hout.length_eq, List.length_append]
    omega
  · change _ + st'.sq.published.length ≤ n
    rw [hp.published_eq]
    exact hseen

theorem outstanding_submit (st : RunState slab) (inFlight : List Sqe) :
    (World.outstanding ⟨st, .submitting, inFlight⟩).Perm
      (World.outstanding ⟨{ st with sq := st.sq.consume }, .draining,
        inFlight ++ st.sq.published⟩) := by
  simp only [World.outstanding, SubmissionRing.waiting, SubmissionRing.consume,
    List.nil_append, List.append_assoc]
  have hcomm := List.perm_append_comm_assoc st.sq.published st.sq.pushed inFlight
  exact hcomm.trans (List.Perm.append_left _ List.perm_append_comm)

theorem outstanding_drained (st : RunState slab) (inFlight : List Sqe) :
    World.outstanding ⟨{ st with sq := st.sq.sync }, .submitting, inFlight⟩ =
      World.outstanding ⟨st, .draining, inFlight⟩ := by
  simp only [World.outstanding, SubmissionRing.waiting, SubmissionRing.sync, List.append_nil]

theorem Step.proceeds {w w' : World slab} (h : Step uring readers w l w') :
    Proceeds uring readers w l w' := by
  cases h with
  | submit => exact .submit
  | busy => exact .busy
  | complete tag hok => exact .complete tag (onCompletion_ok hok).1
  | drained => exact .drained

theorem Proceeds.invariant {w w' : World slab} (h : Proceeds uring readers w l w')
    (hi : w.Invariant readers n) : w'.Invariant readers n := by
  obtain ⟨stale, hc, hseen⟩ := hi.counts
  cases h with
  | @submit st inFlight =>
    have hout := outstanding_submit st inFlight
    refine ⟨?_, hi.pushed, Phase.noConfusion, hi.capacity, ?_, _, hc.consume, ?_⟩
    · have hs := hi.sound.perm hout
      exact ⟨hs.request, hs.reads, hs.writes⟩
    · rw [← hout.length_eq]
      exact hi.length_le
    · simpa only [SubmissionRing.consume, List.length_nil, Nat.add_zero] using hseen
  | busy =>
    exact ⟨hi.sound, hi.pushed, Phase.noConfusion, hi.capacity, hi.length_le, stale, hc, hseen⟩
  | @complete st event st' failed front entry back tag hok =>
    have hs := hi.sound_complete
    obtain ⟨hh, hs'⟩ := hs.processed tag hok
    exact hi.completed hh hs'
  | @drained st inFlight =>
    have hle := hi.length_le
    refine ⟨?_, fun e he => absurd he List.not_mem_nil, fun _ => rfl, hi.capacity, ?_, 0,
      hc.sync, ?_⟩
    · rw [outstanding_drained]
      exact ⟨hi.sound.request, hi.sound.reads, hi.sound.writes⟩
    · rw [outstanding_drained]
      exact hle
    · simp only [World.outstanding, SubmissionRing.waiting, List.length_append] at hle
      simp only [SubmissionRing.sync, List.length_append]
      omega

namespace RunArgs

variable {args : RunArgs}

theorem Starts.ready {st : RunState slab} (h : args.Starts host st) :
    ∃ pending, Ready host slab args.method args.first args.last args.timeout args.count st
      pending := by
  obtain ⟨env, hsetup⟩ := h
  exact setup_ready hsetup

theorem Starts.unique {st st' : RunState slab} (h : args.Starts host st)
    (h' : args.Starts host st') : st = st' := by
  obtain ⟨env, hsetup⟩ := h
  obtain ⟨env', hsetup'⟩ := h'
  exact setup_unique hsetup hsetup'

theorem starts (args : RunArgs) (host : Host) (slab : SlabApi Outgoing)
    (hlt : args.initialProbes.length < 2 ^ 16) : ∃ st : RunState slab, args.Starts host st := by
  have hopens := Environment.opens_opening false
  have hlen : bufferLen false host args.method = .ok _ := operator_eq_ok_iff.mpr ⟨nofun, rfl⟩
  obtain ⟨st, hsetup⟩ := hopens.setup slab args.timeout (hopens.sizes hlt nofun hlen)
  exact ⟨st, _, hsetup⟩

theorem Reaches.processes {w : World slab} (h : args.Reaches uring labels w) :
    args.Processes uring labels w := by
  obtain ⟨st, hstart, hpath⟩ := h
  exact ⟨st, hstart, hpath.mono Step.proceeds⟩

theorem Processes.step {w w' : World slab} (h : args.Processes uring labels w)
    (hs : Proceeds uring (args.readers host) w l w') : args.Processes uring (labels ++ [l]) w' := by
  obtain ⟨st, hstart, hpath⟩ := h
  exact ⟨st, hstart, hpath.tail hs⟩

theorem Processes.invariant {w : World slab} (h : args.Processes uring labels w) :
    w.Invariant (args.readers host) args.ringSize := by
  obtain ⟨st, hstarts, hpath⟩ := h
  obtain ⟨pending, hready⟩ := hstarts.ready
  have hi := hready.invariant
  rw [hready.probes] at hi
  exact hpath.invariant hi fun hi hstep => hstep.invariant hi

theorem Reaches.invariant {w : World slab} (h : args.Reaches uring labels w) :
    w.Invariant (args.readers host) args.ringSize := h.processes.invariant

theorem Ends.processes {returned : Returned slab} (h : args.Ends uring labels returned)
    (hok : returned.exit = .ok probes) :
    probes = returned.state.probes ∧
      ∃ w, args.Processes uring labels w ∧ w.run = returned.state := by
  obtain ⟨before, label, w, rfl, hreach, hexit⟩ := h
  cases hexit with
  | submit => cases hok
  | @complete st event returned front entry back tag hreturn =>
    have hs := hreach.invariant.sound_complete
    cases hs.completion_error tag hreturn with
    | done hp =>
      cases hok
      exact ⟨rfl, _, hreach.processes.step (.complete tag hp), rfl⟩
    | panic => cases hok
    | full => cases hok

/-- A run that returns its probes on a completion other than the timeout has found the trace
done. -/
theorem Reaches.exits_done {w : World slab} {returned : Returned slab}
    (h : args.Reaches uring labels w) (he : Exits uring (args.readers host) w label returned)
    (hok : returned.exit = .ok probes)
    (hlabel : ∀ d event, label ≠ .complete (timeoutEntry d) event) :
    ∃ u : World slab, args.Processes uring (labels ++ [label]) u ∧ u.run.probes = probes ∧
      u.run.complete = true := by
  cases he with
  | submit => cases hok
  | @complete st event returned front entry back tag hreturn =>
    have hs := h.invariant.sound_complete
    cases hs.completion_error tag hreturn with
    | done hp hdone =>
      cases hok
      refine ⟨_, h.processes.step (.complete tag hp), rfl, hdone.resolve_right ?_⟩
      rintro ⟨d, rfl⟩
      exact hlabel d event rfl
    | panic => cases hok
    | full => cases hok

/-- The run returns on a completion that completes the trace and goes on after any other, the
timeout apart. -/
theorem Reaches.completes {w w' : World slab} (h : args.Reaches uring labels w)
    (hstep : Proceeds uring (args.readers host) w (.complete entry event) w') :
    (w'.run.complete = true →
      Exits uring (args.readers host) w (.complete entry event) ⟨.ok w'.run.probes, w'.run⟩) ∧
    (w'.run.complete = false → (∀ d, entry ≠ timeoutEntry d) →
      Step uring (args.readers host) w (.complete entry event) w') := by
  cases hstep with
  | @complete st event st' failed front entry back tag hp =>
    have hs := h.invariant.sound_complete
    have hreq := hs.request entry List.mem_cons_self
    obtain ⟨state, hstate⟩ := hreq.state_some tag
    have hend := onCompletion_processed hstate hp
    constructor
    · intro hc
      exact .complete tag (hend.trans (if_pos ((st'.done_iff state).mpr (.inl hc))))
    · intro hc htimeout
      have hgo : ¬ st'.done state = true := by
        rw [RunState.done_iff, hreq.state_timeout tag hstate]
        rintro (hdone | ⟨d, hd⟩)
        · exact Bool.false_ne_true (hc.symm.trans hdone)
        · exact htimeout d hd
      exact .complete tag (hend.trans (if_neg hgo))

end RunArgs

end Invariants

end Ringroute
