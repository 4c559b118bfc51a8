import Ringroute.Safety

namespace Ringroute
open Library
set_option autoImplicit true

section Spec

variable {host : Host} (uring : RecvMsgOutApi host)

/-- The reply of a completion that answers probe `i`: a successful read that passes the checks on
its control data and is identified with the probe. -/
def answer? (i : Nat) : Sqe × Event → Option (Multishot × Reply × Instant)
  | (entry, event) =>
    match entry.reader? with
    | none => none
    | some reader =>
      if event.cqe.result ≥ 0 then
        match receive uring reader event with
        | .ok (some reply) =>
          if (reader.queue.replies.identify reply).map ProbeId.index = some i then
            some (reader, reply, event.now)
          else none
        | _ => none
      else none

/-- The write of probe `i` among the completions, with those processed after it. -/
def fromWrite (i : Nat) : List (Sqe × Event) → Option (Event × List (Sqe × Event))
  | [] => none
  | (entry, event) :: cs => if entry.probe? = some i then some (event, cs) else fromWrite i cs

def Event.sentAt (write : Event) : Option Instant :=
  if write.cqe.result ≥ 0 then some write.now else none

/-- When probe `i` was sent, by the completions of a run. -/
def sentAtOf (i : Nat) (cs : List (Sqe × Event)) : Option Instant :=
  (fromWrite i cs).bind fun (write, _) => write.sentAt

def resultBy (sentAt : Instant) : Multishot × Reply × Instant → ProbeResult
  | (reader, reply, now) =>
    { source := reply.ip?
      rtt := now - sentAt
      kind := reader.queue.replies.classify reply }

/-- The result of probe `i`: that of the first answer processed after its send succeeded. -/
def resultOf (i : Nat) (cs : List (Sqe × Event)) : Option ProbeResult :=
  (fromWrite i cs).bind fun (write, later) =>
    write.sentAt.bind fun sentAt => (later.findSome? (answer? uring i)).map (resultBy sentAt)

/-- Probe `i` as the completions of a run make it. -/
def Probe.specified (i : Nat) (probe : Probe) (cs : List (Sqe × Event)) : Probe where
  ttl := probe.ttl
  sentAt := sentAtOf i cs
  result := resultOf uring i cs

variable {uring}

theorem Probe.after_eq (probe : Probe) (h : entry.probe? ≠ some i) :
    probe.after uring i (entry, event) =
      match answer? uring i (entry, event) with
      | none => probe
      | some (reader, reply, now) => probe.credit reader reply now i := by
  obtain ⟨opcode, userData⟩ := entry
  cases opcode with
  | sendMsg outgoing => exact if_neg fun hc => h (congrArg some hc.1)
  | timeout => rfl
  | recvMsgMulti reader flags =>
    simp only [Probe.after, answer?, Sqe.reader?]
    split
    · cases hr : receive uring reader event with
      | error => rfl
      | ok reply =>
        cases reply with
        | none => rfl
        | some reply =>
          by_cases hid : (reader.queue.replies.identify reply).map ProbeId.index = some i
          · simp only [if_pos hid]
          · simp only [if_neg hid]
            exact Probe.credit_other hid
    · rfl

theorem answer?_identify {c : Sqe × Event} (h : answer? uring i c = some (reader, reply, now)) :
    (reader.queue.replies.identify reply).map ProbeId.index = some i := by
  obtain ⟨entry, event⟩ := c
  simp only [answer?] at h
  split at h
  · cases h
  · split at h
    · split at h
      · split at h
        · rename_i hid
          cases h
          exact hid
        · cases h
      · cases h
    · cases h

theorem Probe.after_unsent {probe : Probe} (hs : probe.sentAt = none) (h : entry.probe? ≠ some i) :
    probe.after uring i (entry, event) = probe := by
  rw [Probe.after_eq probe h]
  split
  · rfl
  · exact Probe.credit_unsent hs

theorem Probe.after_answered {probe : Probe} (hr : probe.result ≠ none)
    (h : entry.probe? ≠ some i) : probe.after uring i (entry, event) = probe := by
  rw [Probe.after_eq probe h]
  split
  · rfl
  · exact Probe.credit_answered hr

theorem Probe.after_write (probe : Probe) (h : entry.probe? = some i) :
    probe.after uring i (entry, event) =
      if event.cqe.result ≥ 0 then { probe with sentAt := some event.now } else probe := by
  obtain ⟨opcode, userData⟩ := entry
  cases opcode with
  | sendMsg outgoing =>
    have hi : outgoing.probe.index = i := Option.some.inj h
    simp only [Probe.after, hi, true_and]
  | timeout => cases h
  | recvMsgMulti => cases h

theorem not_mem_written {cs : List (Sqe × Event)} (h : i ∉ written ((entry, event) :: cs)) :
    entry.probe? ≠ some i ∧ i ∉ written cs := by
  constructor
  · intro hp
    exact h (List.mem_filterMap.mpr ⟨(entry, event), List.mem_cons_self, hp⟩)
  · intro hm
    obtain ⟨c, hc, hp⟩ := List.mem_filterMap.mp hm
    exact h (List.mem_filterMap.mpr ⟨c, List.mem_cons_of_mem _ hc, hp⟩)

theorem foldl_unsent {cs : List (Sqe × Event)} {probe : Probe} (hs : probe.sentAt = none)
    (h : i ∉ written cs) : cs.foldl (Probe.after uring i) probe = probe := by
  induction cs with
  | nil => rfl
  | cons c cs ih =>
    obtain ⟨hp, hcs⟩ := not_mem_written h
    rw [List.foldl_cons, Probe.after_unsent hs hp]
    exact ih hcs

theorem foldl_answered {cs : List (Sqe × Event)} {probe : Probe} (hr : probe.result ≠ none)
    (h : i ∉ written cs) : cs.foldl (Probe.after uring i) probe = probe := by
  induction cs with
  | nil => rfl
  | cons c cs ih =>
    obtain ⟨hp, hcs⟩ := not_mem_written h
    rw [List.foldl_cons, Probe.after_answered hr hp]
    exact ih hcs

theorem foldl_sent {cs : List (Sqe × Event)} (probe : Probe) (hs : probe.sentAt = some sentAt)
    (hr : probe.result = none) (h : i ∉ written cs) :
    cs.foldl (Probe.after uring i) probe =
      { probe with result := (cs.findSome? (answer? uring i)).map (resultBy sentAt) } := by
  induction cs with
  | nil =>
    obtain ⟨ttl, sentAt', result⟩ := probe
    change result = none at hr
    subst hr
    rfl
  | cons c cs ih =>
    obtain ⟨hp, hcs⟩ := not_mem_written h
    rw [List.foldl_cons, Probe.after_eq probe hp]
    cases ha : answer? uring i c with
    | none =>
      rw [List.findSome?_cons_of_isNone (by rw [ha]; rfl)]
      exact ih hcs
    | some answer =>
      obtain ⟨reader, reply, now⟩ := answer
      have hcredit : probe.credit reader reply now i =
          { probe with result := some (resultBy sentAt (reader, reply, now)) } := by
        simp only [Probe.credit, answer?_identify ha, hr, and_self, if_true, hs, Option.map_some,
          resultBy]
      rw [List.findSome?_cons_of_isSome (by rw [ha]; rfl), ha]
      dsimp only
      rw [hcredit]
      exact foldl_answered (Option.some_ne_none _) hcs

theorem foldl_specified {cs : List (Sqe × Event)} {probe : Probe} (hs : probe.sentAt = none)
    (hr : probe.result = none) (h : (written cs).Nodup) :
    cs.foldl (Probe.after uring i) probe = probe.specified uring i cs := by
  induction cs with
  | nil =>
    obtain ⟨ttl, sentAt, result⟩ := probe
    cases hs
    cases hr
    rfl
  | cons c cs ih =>
    obtain ⟨entry, event⟩ := c
    rw [List.foldl_cons]
    by_cases hp : entry.probe? = some i
    · have hcs : i ∉ written cs := by
        rw [written_cons_some hp] at h
        exact (List.nodup_cons.mp h).1
      have hfrom : fromWrite i ((entry, event) :: cs) = some (event, cs) := if_pos hp
      rw [Probe.after_write probe hp, Probe.specified, sentAtOf, resultOf, hfrom]
      simp only [Option.bind_some, Event.sentAt]
      split
      · rw [foldl_sent { probe with sentAt := some event.now } rfl hr hcs]
        rfl
      · rw [foldl_unsent hs hcs]
        obtain ⟨ttl, sentAt, result⟩ := probe
        cases hs
        cases hr
        rfl
    · have hcs : (written cs).Nodup := by
        cases he : entry.probe? with
        | none => rwa [written_cons_none he] at h
        | some j =>
          rw [written_cons_some he] at h
          exact (List.nodup_cons.mp h).2
      have hfrom : fromWrite i ((entry, event) :: cs) = fromWrite i cs := if_neg hp
      rw [Probe.after_unsent hs hp, ih hcs]
      simp only [Probe.specified, sentAtOf, resultOf, hfrom]

end Spec

/-- The first reader of a trace of the loopback address. -/
def echoReader : Multishot := .tryNew .x86_64 ⟨false, echoReplies⟩ 0

/-- The buffer of an echo reply of 127.0.0.1 to probe 0. -/
def echoBuffer : Bytes :=
  (RecvMsgHeader.mk 16 0 8 0).bytes .x86_64 ++
    ([2, 0, 0, 0, 127, 0, 0, 1] ++ List.replicate 20 0) ++ List.replicate 8 0

def echo (now : Instant) : Event where
  cqe := { result := 52, userData := echoReader.entry.userData, more := true, bufferId := some 0 }
  getBuf _ _ := some echoBuffer
  now := now

namespace RunArgs

variable {host : Host} {uring : RecvMsgOutApi host} {slab : SlabApi Outgoing} {args : RunArgs}

/-- The probes a run holds after the labels, or returns on the last of them. -/
def Leaves (args : RunArgs) (uring : RecvMsgOutApi host) (slab : SlabApi Outgoing)
    (labels : List Label) (probes : List Probe) : Prop :=
  (∃ w : World slab, args.Reaches uring labels w ∧ w.run.probes = probes) ∨
    ∃ returned : Returned slab, args.Ends uring labels returned ∧ returned.exit = .ok probes

theorem Reaches.leaves {w : World slab} (h : args.Reaches uring labels w) :
    args.Leaves uring slab labels w.run.probes := .inl ⟨w, h, rfl⟩

theorem Leaves.processes (h : args.Leaves uring slab labels probes) :
    ∃ w : World slab, args.Processes uring labels w ∧ w.run.probes = probes := by
  rcases h with ⟨w, hreach, hprobes⟩ | ⟨returned, hends, hok⟩
  · exact ⟨w, hreach.processes, hprobes⟩
  · obtain ⟨hprobes, w, hw, hrun⟩ := hends.processes hok
    exact ⟨w, hw, by rw [hrun, hprobes]⟩

theorem initialProbes_unsent (h : probe ∈ args.initialProbes) :
    probe.sentAt = none ∧ probe.result = none := by
  obtain ⟨ttl, _, rfl⟩ := List.mem_map.mp h
  exact ⟨rfl, rfl⟩

theorem Processes.nodup_written {w : World slab} (h : args.Processes uring labels w) :
    (written (completions labels)).Nodup :=
  (List.nodup_append.mp (h.writes.nodup_iff.mpr List.nodup_range)).1

/-- The loop computes the specification of each probe. -/
theorem Processes.specified {w : World slab} (h : args.Processes uring labels w) (i : Nat) :
    w.run.probes[i]? =
      args.initialProbes[i]?.map (Probe.specified uring i · (completions labels)) := by
  rw [h.probes]
  cases hp : args.initialProbes[i]? with
  | none => rfl
  | some probe =>
    obtain ⟨hsent, hresult⟩ := initialProbes_unsent (List.mem_of_getElem? hp)
    rw [Option.map_some, Option.map_some, foldl_specified hsent hresult h.nodup_written]

theorem Processes.specified_of_lt {w : World slab} (h : args.Processes uring labels w)
    (hi : i < args.probeCount) :
    ∃ probe, w.run.probes[i]? = some probe ∧ probe.sentAt = sentAtOf i (completions labels) ∧
      probe.result = resultOf uring i (completions labels) := by
  rw [← length_initialProbes] at hi
  refine ⟨args.initialProbes[i].specified uring i (completions labels), ?_, rfl, rfl⟩
  rw [h.specified, List.getElem?_eq_getElem hi]
  rfl

theorem Processes.length_probes {w : World slab} (h : args.Processes uring labels w) :
    w.run.probes.length = args.probeCount := by
  rw [← length_initialProbes]
  have hn (i : Nat) : w.run.probes.length ≤ i ↔ args.initialProbes.length ≤ i := by
    rw [← List.getElem?_eq_none_iff, ← List.getElem?_eq_none_iff, h.probes, Option.map_eq_none_iff]
  exact Nat.le_antisymm ((hn _).mpr (Nat.le_refl _)) ((hn _).mp (Nat.le_refl _))

theorem fromWrite_of_mem {cs : List (Sqe × Event)} (h : (entry, event) ∈ cs)
    (hp : entry.probe? = some i) (hnodup : (written cs).Nodup) :
    ∃ later, fromWrite i cs = some (event, later) := by
  induction cs with
  | nil => exact absurd h List.not_mem_nil
  | cons c cs ih =>
    obtain ⟨entry', event'⟩ := c
    rcases List.mem_cons.mp h with he | h
    · cases he
      exact ⟨cs, if_pos hp⟩
    · have hmem : i ∈ written cs := List.mem_filterMap.mpr ⟨_, h, hp⟩
      cases hp' : entry'.probe? with
      | none =>
        rw [written_cons_none hp'] at hnodup
        obtain ⟨later, hlater⟩ := ih h hnodup
        exact ⟨later, by rw [fromWrite, hp', if_neg (Option.some_ne_none i).symm, hlater]⟩
      | some j =>
        rw [written_cons_some hp', List.nodup_cons] at hnodup
        obtain ⟨later, hlater⟩ := ih h hnodup.2
        have hj : some j ≠ some i := by
          intro hc
          cases hc
          exact hnodup.1 hmem
        exact ⟨later, by rw [fromWrite, hp', if_neg hj, hlater]⟩

/-- The probes of a run are what the specification makes of the completions processed, in every
state of the run and in what it returns. A completion that is neither the write of a probe nor an
answer to it, or that comes when the probe has its result, leaves the probe as it is, and a probe
whose send failed has neither a send time nor a result. -/
theorem Leaves.probes_specified (h : args.Leaves uring slab labels probes) :
    (probes.length = args.probeCount ∧ ∀ i < args.probeCount, ∃ probe, probes[i]? = some probe ∧
      probe.sentAt = sentAtOf i (completions labels) ∧
      probe.result = resultOf uring i (completions labels)) ∧
    (∀ entry event probes', args.Leaves uring slab (labels ++ [.complete entry event]) probes' →
      ∀ i, entry.probe? ≠ some i →
        (answer? uring i (entry, event) = none ∨
          ∃ probe, probes[i]? = some probe ∧ probe.result ≠ none) →
        probes'[i]? = probes[i]?) ∧
    ∀ entry event i, (entry, event) ∈ completions labels → entry.probe? = some i →
      event.cqe.result < 0 →
      ∃ probe, probes[i]? = some probe ∧ probe.sentAt = none ∧ probe.result = none := by
  obtain ⟨w, hw, rfl⟩ := h.processes
  refine ⟨⟨hw.length_probes, fun i hi => hw.specified_of_lt hi⟩, ?_, ?_⟩
  · intro entry event probes' h' i hp hquiet
    obtain ⟨w', hw', rfl⟩ := h'.processes
    rw [hw'.probes, completions_append, hw.probes]
    rw [hw.probes] at hquiet
    cases hprobe : args.initialProbes[i]? with
    | none => rfl
    | some probe =>
      rw [hprobe, Option.map_some] at hquiet
      simp only [Option.map_some, completions, List.foldl_append, List.foldl_cons, List.foldl_nil]
      rcases hquiet with hnone | ⟨probe', he, hresult⟩
      · rw [Probe.after_eq _ hp, hnone]
      · cases he
        rw [Probe.after_answered hresult hp]
  · intro entry event i hmem hp hfailed
    have hi : i < args.probeCount := by
      have hwritten : i ∈ written (completions labels) := List.mem_filterMap.mpr ⟨_, hmem, hp⟩
      exact List.mem_range.mp (hw.writes.mem_iff.mp (List.mem_append_left _ hwritten))
    obtain ⟨probe, hprobe, hsent, hresult⟩ := hw.specified_of_lt hi
    obtain ⟨later, hfrom⟩ := fromWrite_of_mem hmem hp hw.nodup_written
    have hnone : event.sentAt = none := if_neg (Int.not_le.mpr hfailed)
    refine ⟨probe, hprobe, ?_, ?_⟩
    · rw [hsent, sentAtOf, hfrom]
      exact hnone
    · rw [hresult, resultOf, hfrom]
      dsimp only [Option.bind_some]
      rw [hnone]
      rfl

/-- A completion that a run can meet at any time after its first submission: a send that goes
through, or a message for a reader. -/
inductive Scripted (readers : List Multishot) (rest : List Sqe) : Sqe × Event → Prop where
  | send (now : Instant) (h : writeEntry k o ∈ rest) :
      Scripted readers rest (writeEntry k o, sent k o now)
  | read (hm : m ∈ readers) (tag : event.cqe.userData = m.entry.userData)
      (hmore : event.cqe.more = true) (hdelivered : Delivered m event) :
      Scripted readers rest (m.entry, event)

/-- The labels of a run that submits its requests and then meets the completions. -/
def script (cs : List (Sqe × Event)) : List Label :=
  .submit .ok :: cs.map fun c => .complete c.1 c.2

theorem script_concat (cs : List (Sqe × Event)) (entry : Sqe) (event : Event) :
    script (cs ++ [(entry, event)]) = script cs ++ [.complete entry event] := by
  simp only [script, List.map_append, List.map_singleton, List.cons_append]

@[simp] theorem completions_script (cs : List (Sqe × Event)) : completions (script cs) = cs := by
  induction cs with
  | nil => rfl
  | cons c cs ih => exact congrArg (c :: ·) ih

theorem script_untimed {cs : List (Sqe × Event)} (h : ∀ c ∈ cs, c.1 ≠ timeoutEntry d) :
    .complete (timeoutEntry d) event ∉ script cs := by
  intro hmem
  rcases List.mem_cons.mp hmem with he | hmem
  · cases he
  · obtain ⟨c, hc, he⟩ := List.mem_map.mp hmem
    exact h c hc (Label.complete.inj he).1

/-- Sends and messages can come in any order while a send is pending. -/
theorem Submitted.script {uring : RecvMsgOutApi host} {st : RunState slab}
    {cs : List (Sqe × Event)} (h : args.Submitted uring st m₀ m₁ rest)
    (hcs : ∀ c ∈ cs, Scripted (args.readers host) rest c) (hnodup : (written cs).Nodup)
    (hpending : ∃ i < args.probeCount, i ∉ written cs) :
    ∃ w : World slab, w.phase = .draining ∧ args.Reaches uring (RunArgs.script cs) w ∧
      ∀ e ∈ (World.submitted st).inFlight, (∀ i ∈ written cs, e.probe? ≠ some i) →
        e ∈ w.inFlight := by
  induction cs using List.reverseRecOn with
  | nil => exact ⟨_, rfl, h.reaches, fun e he _ => he⟩
  | append_singleton cs c ih =>
    obtain ⟨i, hi, hfree⟩ := hpending
    rw [written_append, List.mem_append, not_or] at hfree
    rw [written_append, List.nodup_append] at hnodup
    obtain ⟨hcs', _, hdisjoint⟩ := hnodup
    obtain ⟨w, hphase, hreach, hkeep⟩ :=
      ih (fun c hc => hcs c (List.mem_append_left _ hc)) hcs' ⟨i, hi, hfree.1⟩
    have hscripted := hcs c (List.mem_append_right _ List.mem_cons_self)
    cases hscripted with
    | @send k o now hrest =>
      have hone : written [(writeEntry k o, sent k o now)] = [o.probe.index] := rfl
      rw [hone] at hfree hdisjoint
      have hflight : writeEntry k o ∈ w.inFlight := by
        refine hkeep _ (h.mem_rest hrest) fun j hj he => ?_
        exact hdisjoint j hj _ List.mem_cons_self (Option.some.inj he).symm
      have hsent : ¬ args.AllSent
          (RunArgs.script cs ++ [.complete (writeEntry k o) (sent k o now)]) := by
        intro hall
        have hmem := hall i hi
        rw [← script_concat, completions_script, written_append, hone] at hmem
        exact (List.mem_append.mp hmem).elim hfree.1 hfree.2
      obtain ⟨w', hphase', hreach', hkeep'⟩ := hreach.send hflight hphase now hsent
      rw [script_concat, written_append, hone]
      refine ⟨w', hphase', hreach', fun e he hne => ?_⟩
      exact hkeep' e (hkeep e he fun j hj => hne j (List.mem_append_left _ hj))
        (hne _ (List.mem_append_right _ List.mem_cons_self))
    | @read m event hm tag hmore hdelivered =>
      have hflight : m.entry ∈ w.inFlight := by
        refine hkeep _ ?_ fun j _ he => nomatch he
        change _ ∈ st.sq.published
        rw [h.readers] at hm
        rw [h.published]
        rcases List.mem_cons.mp hm with rfl | hm
        · exact List.mem_cons_self
        · cases List.mem_singleton.mp hm
          exact List.mem_cons_of_mem _ List.mem_cons_self
      have hsent : ¬ args.AllSent (RunArgs.script cs) := by
        intro hall
        have hmem := hall i hi
        rw [completions_script] at hmem
        exact hfree.1 hmem
      obtain ⟨probes, hok⟩ := readProbes_ok uring w.run.probes hm hdelivered
      obtain ⟨w', hphase', hreach', hsame⟩ :=
        hreach.read hflight hphase (readersOf_getElem? hm) tag hmore hsent hok
      rw [script_concat]
      refine ⟨w', hphase', hreach', fun e he hne => ?_⟩
      rw [hsame]
      refine hkeep e he fun j hj => hne j ?_
      rw [written_append]
      exact List.mem_append_left _ hj

theorem scripted_echo {readers : List Multishot} (h : echoReader ∈ readers) (now : Instant) :
    Scripted readers rest (echoReader.entry, echo now) :=
  .read h rfl rfl fun _ => ⟨0, echoBuffer, rfl, rfl, rfl, by decide⟩

theorem loopback_orders (t t' : Instant) :
    ∃ k o, o.probe.index = 0 ∧
      (∃ w : World (.vec Outgoing), (loopback 1 2 1).Reaches (.layout .x86_64)
        [.submit .ok, .complete (writeEntry k o) (sent k o t),
          .complete echoReader.entry (echo t')] w ∧
        w.phase = .draining ∧ ∃ k' o', o'.probe.index = 1 ∧ writeEntry k' o' ∈ w.inFlight) ∧
      ∃ w : World (.vec Outgoing), (loopback 1 2 1).Reaches (.layout .x86_64)
        [.submit .ok, .complete echoReader.entry (echo t),
          .complete (writeEntry k o) (sent k o t')] w := by
  obtain ⟨st, m₀, m₁, rest, h⟩ :=
    (loopback 1 2 1).submitted (.layout .x86_64) (.vec Outgoing) (by decide)
  obtain ⟨k, o, hmem, ho⟩ := h.writes 0 (by decide)
  obtain ⟨k', o', hmem', ho'⟩ := h.writes 1 (by decide)
  have hecho (t : Instant) : Scripted ((loopback 1 2 1).readers .x86_64) rest
      (echoReader.entry, echo t) := scripted_echo List.mem_cons_self t
  have hpending : ∃ i < (loopback 1 2 1).probeCount, i ∉ [o.probe.index] := by
    rw [ho]
    exact ⟨1, by decide, by decide⟩
  refine ⟨k, o, ho, ?_, ?_⟩
  · obtain ⟨w, hphase, hreach, hkeep⟩ := h.script (List.forall_mem_cons.mpr
      ⟨.send t hmem, List.forall_mem_singleton.mpr (hecho t')⟩) (List.nodup_singleton _) hpending
    refine ⟨w, hreach, hphase, k', o', ho', hkeep _ (h.mem_rest hmem') fun i hi => ?_⟩
    rw [List.mem_singleton.mp hi, writeEntry_probe?, ho, ho']
    decide
  · obtain ⟨w, _, hreach, _⟩ := h.script (List.forall_mem_cons.mpr
      ⟨hecho t, List.forall_mem_singleton.mpr (.send t' hmem)⟩) (List.nodup_singleton _) hpending
    exact ⟨w, hreach⟩

theorem fromWrite_loopback (ho : o.probe.index = 0) (cs : List (Sqe × Event)) :
    fromWrite 0 ((writeEntry k o, sent k o t) :: cs) = some (sent k o t, cs) :=
  if_pos (congrArg some ho)

theorem resultOf_loopback (ho : o.probe.index = 0) (cs : List (Sqe × Event)) :
    resultOf (.layout .x86_64) 0
      ((writeEntry k o, sent k o 7) :: (echoReader.entry, echo 9) :: cs) =
      some ⟨some (.v4 .localhost), 2, .destination⟩ := by
  rw [resultOf, fromWrite_loopback ho]
  rfl

/-- A probe sent at 7 and answered at 9. -/
theorem probes_specified_loopback :
    ∃ labels probes probe, (loopback 1 2 1).Leaves (.layout .x86_64) (.vec Outgoing) labels probes ∧
      probes[0]? = some probe ∧ probe.sentAt = some 7 ∧
      probe.result = some ⟨some (.v4 .localhost), 2, .destination⟩ := by
  obtain ⟨k, o, ho, ⟨w, hreach, _⟩, _⟩ := loopback_orders 7 9
  have h := hreach.leaves
  obtain ⟨probe, hprobe, hsent, hresult⟩ := h.probes_specified.1.2 0 (by decide)
  refine ⟨_, w.run.probes, probe, h, hprobe, ?_, ?_⟩
  · rw [hsent]
    change sentAtOf 0 ((writeEntry k o, sent k o 7) :: _) = _
    rw [sentAtOf, fromWrite_loopback ho]
    rfl
  · rw [hresult]
    exact resultOf_loopback ho []

end RunArgs

end Ringroute
