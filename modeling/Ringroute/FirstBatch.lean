import Ringroute.History

namespace Ringroute
open Library
set_option autoImplicit true

theorem readersOf_eq (host : Host) (method : Method) :
    ∃ q₀ q₁, method.queues = [q₀, q₁] ∧
      readersOf host method = [Multishot.tryNew host q₀ 0, Multishot.tryNew host q₁ 1] := by
  obtain ⟨q₀, q₁, hq⟩ := List.length_eq_two.mp method.queues_length
  refine ⟨q₀, q₁, hq, ?_⟩
  rw [readersOf, hq]
  rfl

variable {host : Host} {uring : RecvMsgOutApi host} {slab : SlabApi Outgoing}

/-- The completion of the timeout when it runs out. -/
def timedOut : Event where
  cqe :=
    { result := -etime
      userData := (timeoutEntry 0).userData
      more := false
      bufferId := none }
  getBuf _ _ := none
  now := 0

/-- The completion of a send that went through. -/
def sent (k : Nat) (o : Outgoing) (now : Instant) : Event where
  cqe := { result := 0, userData := (writeEntry k o).userData, more := false, bufferId := none }
  getBuf _ _ := none
  now := now

/-- The final completion of a read that found no buffer to select. -/
def Multishot.dropped (m : Multishot) : Event where
  cqe := { result := -105, userData := m.entry.userData, more := false, bufferId := none }
  getBuf _ _ := none
  now := 0

theorem readProbes_dropped (m : Multishot) (probes : List Probe) :
    readProbes uring probes m.dropped m =
      .ok probes := rfl

@[simp] theorem dropped_more (m : Multishot) : m.dropped.cqe.more = false := rfl

theorem onCompletion_dropped (uring : RecvMsgOutApi host) (st : RunState slab) {m : Multishot}
    {sq : SubmissionRing Sqe} (hm : readers[m.slot.toNat]? = some m)
    (hpush : st.sq.push m.entry = some sq) (hs : slab.isEmpty st.sending = false) :
    onCompletion uring readers st m.dropped =
      .ok ({ st with sq := sq }, !m.queue.replies.ignoresReadError (-105)) := by
  have hschedule : m.schedule st.sq = some sq := hpush
  have hdone : RunState.done { st with sq := sq } .read = false := by
    simp only [RunState.done, hs, Bool.false_and, Bool.false_or]
    rfl
  rw [onCompletion_read uring st hm rfl]
  simp only [completeRead, readProbes_dropped, dropped_more, Bool.false_eq_true, if_false,
    hschedule, Except.bind, finish, hdone]
  rfl

theorem onCompletion_dropped_full (uring : RecvMsgOutApi host) (st : RunState slab) {m : Multishot}
    (hm : readers[m.slot.toNat]? = some m) (hpush : st.sq.push m.entry = none) :
    onCompletion uring readers st m.dropped = .error ⟨.pushError, st⟩ := by
  have hschedule : m.schedule st.sq = none := hpush
  rw [onCompletion_read uring st hm rfl]
  simp only [completeRead, readProbes_dropped, dropped_more, Bool.false_eq_true, if_false,
    hschedule, Except.bind]

/-- The world in which every request of the set-up is in flight. -/
def World.submitted (st : RunState slab) : World slab :=
  ⟨{ st with sq := st.sq.consume }, .draining, st.sq.published⟩

theorem Ready.isEmpty_sending
    (h : Ready host slab method first last timeout count st pending)
    (hne : 0 < st.probes.length) : slab.isEmpty st.sending = false := by
  apply Bool.eq_false_iff.mpr
  intro hempty
  have hnil := h.holds.isEmpty_iff.mp hempty
  have hlen := h.length_pending
  rw [hnil, List.length_nil] at hlen
  omega

theorem Ready.counts_submitted
    (h : Ready host slab method first last timeout count st pending) :
    st.sq.consume.Counts (ringSize method st.probes) := by
  have hc := h.counts.consume
  rw [Nat.zero_add, h.length_published] at hc
  exact hc

namespace RunArgs

/-- A run whose set-up is submitted, and the state it started in. -/
structure Submitted (args : RunArgs) (uring : RecvMsgOutApi host) (st : RunState slab)
    (m₀ m₁ : Multishot) (rest : List Sqe) : Prop where
  readers : args.readers host = [m₀, m₁]
  first : (args.readers host)[m₀.slot.toNat]? = some m₀
  second : (args.readers host)[m₁.slot.toNat]? = some m₁
  reaches : args.Reaches uring [.submit .ok] (World.submitted st)
  published : st.sq.published = m₀.entry :: m₁.entry :: rest
  timeout : timeoutEntry args.timeout ∈ rest
  writes : ∀ i < args.probeCount, ∃ k o, writeEntry k o ∈ rest ∧ o.probe.index = i
  counts : st.sq.consume.Counts (args.probeCount + 3)
  pushed : st.sq.pushed = []
  capacity : st.sq.capacity = nextPowerOfTwo (args.probeCount + 3)
  sending : 0 < args.probeCount → slab.isEmpty st.sending = false

theorem Reaches.step {args : RunArgs} {uring : RecvMsgOutApi host} {w w' : World slab}
    (h : args.Reaches uring labels w) (hs : Step uring (args.readers host) w l w') :
    args.Reaches uring (labels ++ [l]) w' := by
  obtain ⟨st, hstart, hpath⟩ := h
  exact ⟨st, hstart, hpath.tail hs⟩

theorem Submitted.mem_rest {args : RunArgs} {uring : RecvMsgOutApi host} {st : RunState slab}
    (h : args.Submitted uring st m₀ m₁ rest) (he : e ∈ rest) :
    e ∈ (World.submitted st).inFlight := by
  change _ ∈ st.sq.published
  rw [h.published]
  exact List.mem_cons_of_mem _ (List.mem_cons_of_mem _ he)

theorem Submitted.mem_timeout {args : RunArgs} {uring : RecvMsgOutApi host} {st : RunState slab}
    (h : args.Submitted uring st m₀ m₁ rest) :
    timeoutEntry args.timeout ∈ (World.submitted st).inFlight := h.mem_rest h.timeout

theorem Submitted.mem_first {args : RunArgs} {uring : RecvMsgOutApi host} {st : RunState slab}
    (h : args.Submitted uring st m₀ m₁ rest) : m₀.entry ∈ (World.submitted st).inFlight := by
  change _ ∈ st.sq.published
  rw [h.published]
  exact List.mem_cons_self

theorem exits_timeout (uring : RecvMsgOutApi host) (readers : List Multishot) {w : World slab}
    (he : timeoutEntry d ∈ w.inFlight) (hp : w.phase = .draining) :
    Exits uring readers w (.complete (timeoutEntry d) timedOut) ⟨.ok w.run.probes, w.run⟩ := by
  obtain ⟨i, hi⟩ := List.mem_iff_getElem?.mp he
  have htag : timedOut.cqe.userData = (timeoutEntry d).userData := rfl
  exact .at i hp hi htag (onCompletion_timeout htag)

theorem Reaches.complete {args : RunArgs} {uring : RecvMsgOutApi host} {w : World slab}
    (h : args.Reaches uring labels w) (i : Nat) (he : w.inFlight[i]? = some entry)
    (hp : w.phase = .draining) (tag : event.cqe.userData = entry.userData)
    (htimeout : ∀ d, entry ≠ timeoutEntry d)
    (hsent : ¬ args.AllSent (labels ++ [.complete entry event]))
    (hok : process uring (args.readers host) w.run event = .ok (st', failed)) :
    args.Reaches uring (labels ++ [.complete entry event]) ⟨st', .draining,
      if entry.finished event then w.inFlight.eraseIdx i else w.inFlight⟩ := by
  have hstep : Proceeds uring (args.readers host) w _ _ := .at i hp he tag hok
  have hpending := (h.processes.step hstep).isEmpty_sending_iff.not.mpr hsent
  refine h.step ((h.completes hstep).2 ?_ htimeout)
  exact Bool.eq_false_iff.mpr fun hc => hpending (Bool.and_eq_true_iff.mp hc).1

theorem perm_eraseIdx {es : List Sqe} {i : Nat} (h : es[i]? = some entry) :
    es.Perm (entry :: es.eraseIdx i) := by
  obtain ⟨hlt, hget⟩ := List.getElem?_eq_some_iff.mp h
  have herase := List.getElem_cons_eraseIdx_perm hlt
  rw [hget] at herase
  exact herase.symm

theorem Processes.sends {args : RunArgs} {uring : RecvMsgOutApi host} {w : World slab} {i : Nat}
    (h : args.Processes uring labels w) (hi : w.inFlight[i]? = some (writeEntry k o))
    (now : Instant) :
    ∃ st' failed, process uring (args.readers host) w.run (sent k o now) = .ok (st', failed) := by
  have hs := h.invariant.sound.perm (((perm_eraseIdx hi).append_left _).trans List.perm_middle)
  have htag : (sent k o now).cqe.userData = (writeEntry k o).userData := rfl
  rcases hs.completion uring htag with ⟨st', failed, hok, _⟩ | ⟨m, _, hm, _⟩ | ⟨m, _, hm, _⟩
  · exact ⟨st', failed, hok⟩
  · cases congrArg Sqe.opcode hm
  · cases congrArg Sqe.opcode hm

theorem Reaches.send {args : RunArgs} {uring : RecvMsgOutApi host} {w : World slab}
    (h : args.Reaches uring labels w) (he : writeEntry k o ∈ w.inFlight) (hp : w.phase = .draining)
    (now : Instant)
    (hsent : ¬ args.AllSent (labels ++ [.complete (writeEntry k o) (sent k o now)])) :
    ∃ w' : World slab, w'.phase = .draining ∧
      args.Reaches uring (labels ++ [.complete (writeEntry k o) (sent k o now)]) w' ∧
      ∀ e ∈ w.inFlight, e.probe? ≠ some o.probe.index → e ∈ w'.inFlight := by
  obtain ⟨i, hi⟩ := List.mem_iff_getElem?.mp he
  obtain ⟨st', failed, hok⟩ := h.processes.sends hi now
  refine ⟨_, rfl, h.complete i hi hp rfl (writeEntry_ne_timeoutEntry k o) hsent hok, ?_⟩
  intro e hmem hne
  rcases List.mem_cons.mp ((perm_eraseIdx hi).mem_iff.mp hmem) with rfl | hmem
  · exact absurd rfl hne
  · exact hmem

theorem Reaches.read {args : RunArgs} {uring : RecvMsgOutApi host} {w : World slab} {m : Multishot}
    (h : args.Reaches uring labels w) (he : m.entry ∈ w.inFlight) (hp : w.phase = .draining)
    (hm : (args.readers host)[m.slot.toNat]? = some m) (tag : event.cqe.userData = m.entry.userData)
    (hmore : event.cqe.more = true) (hsent : ¬ args.AllSent labels)
    (hread : readProbes uring w.run.probes event m = .ok probes) :
    ∃ w' : World slab, w'.phase = .draining ∧
      args.Reaches uring (labels ++ [.complete m.entry event]) w' ∧ w'.inFlight = w.inFlight := by
  obtain ⟨i, hi⟩ := List.mem_iff_getElem?.mp he
  have hok : process uring (args.readers host) w.run event = .ok ({ w.run with probes := probes },
      event.cqe.result < 0 && !m.queue.replies.ignoresReadError event.cqe.result) := by
    rw [process_read uring w.run hm tag]
    simp only [completeRead, hread, hmore, if_true]
  refine ⟨_, ?_, h.complete i hi hp tag m.entry_ne_timeoutEntry ?_ hok, ?_⟩
  · rfl
  · rw [AllSent, written_snoc_none labels m.entry_probe?]
    exact hsent
  · simp only [Multishot.entry_finished, hmore]
    rfl

theorem Reaches.ends {args : RunArgs} {uring : RecvMsgOutApi host} {w : World slab}
    {returned : Returned slab} (h : args.Reaches uring labels w)
    (he : Exits uring (args.readers host) w label returned) :
    args.Ends uring (labels ++ [label]) returned :=
  ⟨labels, label, w, rfl, h, he⟩

theorem submitted (args : RunArgs) (uring : RecvMsgOutApi host) (slab : SlabApi Outgoing)
    (hlt : args.probeCount < 2 ^ 16) :
    ∃ st : RunState slab, ∃ m₀ m₁ rest, args.Submitted uring st m₀ m₁ rest := by
  rw [← length_initialProbes] at hlt
  obtain ⟨st, hstart⟩ := args.starts host slab hlt
  obtain ⟨pending, h⟩ := hstart.ready
  obtain ⟨q₀, q₁, hq, hreaders⟩ := readersOf_eq host args.method
  have hprobes : st.probes = args.initialProbes := h.probes
  have hsize : Ringroute.ringSize args.method st.probes = args.probeCount + 3 := by
    rw [hprobes]
    exact args.ringSize_eq
  have hcounts := h.counts_submitted
  have hcap := h.capacity
  rw [hsize] at hcounts hcap
  refine ⟨st, .tryNew host q₀ 0, .tryNew host q₁ 1, writesOf pending ++ [timeoutEntry args.timeout],
    hreaders, ?_, ?_, ⟨st, hstart, .single .submit⟩, ?_,
    List.mem_append_right _ List.mem_cons_self, ?_, hcounts, h.pushed, hcap, ?_⟩
  · rw [readers, hreaders]
    rfl
  · rw [readers, hreaders]
    rfl
  · rw [h.published, hreaders]
    rfl
  · intro i hi
    have hmem : i ∈ (pending.map Prod.snd).map (·.probe.index) := by
      rw [h.outgoing, index_outgoingOf st.probes h.length_lt, hprobes, length_initialProbes]
      exact List.mem_range.mpr hi
    obtain ⟨o, ho, rfl⟩ := List.mem_map.mp hmem
    obtain ⟨⟨k, _⟩, hk, rfl⟩ := List.mem_map.mp ho
    exact ⟨k, _, List.mem_append_left _ (List.mem_map.mpr ⟨_, hk, rfl⟩), rfl⟩
  · intro hpos
    apply h.isEmpty_sending
    rw [hprobes, length_initialProbes]
    exact hpos

end RunArgs

end Ringroute
