import Mathlib.Logic.Function.Basic
import Ringroute.Schedule

namespace Ringroute
open Library
set_option autoImplicit true

/-- Where a probe stands: its send is pending, has failed, or went through, and after that it may be
answered. -/
inductive Status where
  | queued
  | failed
  | sent (since : Instant)
  | answered (since : Instant) (result : ProbeResult)
  deriving DecidableEq, Repr

/-- What a trace learns: how a send ended, or that a reply came for a probe. -/
inductive Observation where
  | written (i : Nat) (sentAt : Option Instant)
  | replied (i : Nat) (source : Option IpAddr) (kind : ReplyKind) (now : Instant)
  | nothing

namespace Status

def sentAt : Status → Option Instant
  | .sent since => some since
  | .answered since _ => some since
  | _ => none

def result : Status → Option ProbeResult
  | .answered _ result => some result
  | _ => none

def write (sentAt : Option Instant) : Status :=
  match sentAt with
  | some since => .sent since
  | none => .failed

/-- Only a probe that is sent and not answered takes a reply. -/
def reply (source : Option IpAddr) (kind : ReplyKind) (now : Instant) : Status → Status
  | .sent since => .answered since ⟨source, now - since, kind⟩
  | status => status

end Status

/-- A step of the trace as its probes see it: one of them moves on, and the others stay. -/
inductive Observation.Step : (Nat → Status) → Observation → (Nat → Status) → Prop where
  | written (h : s i = .queued) :
      Step s (.written i sentAt) (Function.update s i (.write sentAt))
  | replied :
      Step s (.replied i source kind now) (Function.update s i ((s i).reply source kind now))
  | nothing : Step s .nothing s

/-- A probe that moves on does so in the order of its life. -/
inductive Status.Follows : Status → Status → Prop where
  | refl : Follows status status
  | queued : Follows .queued status
  | sent : Follows (.sent since) (.answered since outcome)

theorem Status.Follows.trans (h : Follows a b) (h' : Follows b c) : Follows a c := by
  cases h with
  | refl => exact h'
  | queued => exact .queued
  | sent =>
    cases h' with
    | refl => exact .sent

theorem Status.Follows.answered (h : (Status.answered since outcome).Follows status) :
    status = .answered since outcome := by
  cases h with
  | refl => rfl

theorem Status.follows_reply (status : Status) : status.Follows (status.reply source kind now) := by
  cases status with
  | sent => exact .sent
  | _ => exact .refl

theorem Observation.Step.follows (h : Observation.Step s o s') (i : Nat) :
    (s i).Follows (s' i) := by
  cases h with
  | @written j sentAt hj =>
    by_cases hi : i = j
    · subst hi
      rw [hj]
      exact .queued
    · rw [Function.update_of_ne hi]
      exact .refl
  | @replied j source kind now =>
    by_cases hi : i = j
    · subst hi
      rw [Function.update_self]
      exact (s i).follows_reply
    · rw [Function.update_of_ne hi]
      exact .refl
  | nothing => exact .refl

/-- Whatever a trace learns, no probe goes back. -/
theorem Observation.follows_path (h : Path Observation.Step s os s') (i : Nat) :
    (s i).Follows (s' i) :=
  h.invariant (I := fun t => (s i).Follows (t i)) .refl fun ht hstep => ht.trans (hstep.follows i)

section Observed

variable {host : Host} (uring : RecvMsgOutApi host)

/-- The probe that a reply is identified with, and the reply. -/
def identified? : Sqe × Event → Option (Nat × Multishot × Reply)
  | (entry, event) =>
    match entry.reader? with
    | none => none
    | some reader =>
      if event.cqe.result ≥ 0 then
        match receive uring reader event with
        | .ok (some reply) =>
          (reader.queue.replies.identify reply).map fun id => (id.index, reader, reply)
        | _ => none
      else none

theorem answer?_eq (i : Nat) (c : Sqe × Event) :
    answer? uring i c = (identified? uring c).bind fun (j, reader, reply) =>
      if j = i then some (reader, reply, c.2.now) else none := by
  obtain ⟨entry, event⟩ := c
  cases hreader : entry.reader? with
  | none => simp only [answer?, identified?, hreader, Option.bind_none]
  | some reader =>
    by_cases hresult : event.cqe.result ≥ 0
    · simp only [answer?, identified?, hreader, if_pos hresult]
      cases hreceive : receive uring reader event with
      | error => rfl
      | ok reply =>
        cases reply with
        | none => rfl
        | some reply =>
          dsimp only
          cases reader.queue.replies.identify reply with
          | none => rfl
          | some id => simp only [Option.map_some, Option.some_inj, Option.bind_some]
    · simp only [answer?, identified?, hreader, if_neg hresult, Option.bind_none]

/-- What a trace learns of its probes from a completion. -/
def observe (c : Sqe × Event) : Observation :=
  match c.1.probe? with
  | some i => .written i c.2.sentAt
  | none =>
    match identified? uring c with
    | some (i, reader, reply) =>
      .replied i reply.ip? (reader.queue.replies.classify reply) c.2.now
    | none => .nothing

/-- What it learns from a step. -/
def Label.observed : Label → Observation
  | .complete entry event => observe uring (entry, event)
  | _ => .nothing

end Observed

/-- Where a probe stands by its fields, and by whether its send is pending. -/
def Probe.status (pending : Prop) [Decidable pending] (probe : Probe) : Status :=
  match probe.sentAt, probe.result with
  | some since, some result => .answered since result
  | some since, none => .sent since
  | none, _ => if pending then .queued else .failed

theorem Probe.status_congr {p q : Prop} [Decidable p] [Decidable q] (probe : Probe) (h : p ↔ q) :
    probe.status p = probe.status q := by
  simp only [Probe.status, h]

namespace World

variable {slab : SlabApi Outgoing}

/-- The probes whose sends are pending. -/
def pending (w : World slab) : List Nat := w.outstanding.filterMap Sqe.probe?

/-- Where the probes of a trace stand. -/
def statuses (w : World slab) (i : Nat) : Status :=
  match w.run.probes[i]? with
  | none => .queued
  | some probe => probe.status (i ∈ w.pending)

theorem statuses_none {w : World slab} (h : w.run.probes[i]? = none) : w.statuses i = .queued := by
  rw [statuses, h]

theorem statuses_some {w : World slab} (h : w.run.probes[i]? = some probe) :
    w.statuses i = probe.status (i ∈ w.pending) := by
  rw [statuses, h]

theorem statuses_eq {w w' : World slab} (hprobe : w'.run.probes[i]? = w.run.probes[i]?)
    (hpending : i ∈ w'.pending ↔ i ∈ w.pending) : w'.statuses i = w.statuses i := by
  cases hp : w.run.probes[i]? with
  | none => rw [statuses_none hp, statuses_none (hprobe.trans hp)]
  | some probe =>
    rw [statuses_some hp, statuses_some (hprobe.trans hp)]
    exact probe.status_congr hpending

theorem statuses_perm {w w' : World slab} (hprobes : w'.run.probes = w.run.probes)
    (hperm : w'.outstanding.Perm w.outstanding) : w'.statuses = w.statuses :=
  funext fun i => statuses_eq (by rw [hprobes]) (hperm.filterMap Sqe.probe?).mem_iff

end World

section Probes

variable {host : Host} {uring : RecvMsgOutApi host} {entry : Sqe} {event : Event}

theorem Probe.status_credit {p : Prop} [Decidable p] (probe : Probe)
    (hid : (reader.queue.replies.identify reply).map ProbeId.index = some i) :
    (probe.credit reader reply now i).status p =
      (probe.status p).reply reply.ip? (reader.queue.replies.classify reply) now := by
  cases hsent : probe.sentAt with
  | none =>
    rw [Probe.credit_unsent hsent, Probe.status, hsent]
    dsimp only
    split <;> rfl
  | some since =>
    cases hresult : probe.result with
    | none =>
      have hcredit : probe.credit reader reply now i =
          { probe with
            result := some
              { source := reply.ip?
                rtt := now - since
                kind := reader.queue.replies.classify reply } } := by
        simp only [Probe.credit, hid, hresult, and_self, if_true, hsent, Option.map_some]
      rw [hcredit, Probe.status, Probe.status, hsent, hresult]
      rfl
    | some result =>
      rw [Probe.credit_answered (by rw [hresult]; exact Option.some_ne_none _), Probe.status,
        hsent, hresult]
      rfl

theorem Probe.after_quiet (probe : Probe) (hp : entry.probe? ≠ some i)
    (ha : answer? uring i (entry, event) = none) : probe.after uring i (entry, event) = probe := by
  rw [Probe.after_eq probe hp, ha]

theorem identified?_write (h : entry.probe? = some i) :
    identified? uring (entry, event) = none := by
  have hreader : entry.reader? = none := by
    obtain ⟨opcode, userData⟩ := entry
    cases opcode with
    | recvMsgMulti => cases h
    | _ => rfl
  rw [identified?, hreader]

theorem fromWrite_none {cs : List (Sqe × Event)} (h : i ∉ written cs) : fromWrite i cs = none := by
  induction cs with
  | nil => rfl
  | cons c cs ih =>
    obtain ⟨hp, hcs⟩ := not_mem_written h
    rw [fromWrite, if_neg hp, ih hcs]

end Probes

namespace RunArgs

variable {host : Host} {uring : RecvMsgOutApi host} {slab : SlabApi Outgoing} {args : RunArgs}

theorem Processes.pending {w : World slab} (h : args.Processes uring labels w)
    (hi : i ∈ w.pending) :
    i ∉ written (completions labels) ∧
      ∃ probe, w.run.probes[i]? = some probe ∧ probe.sentAt = none ∧ probe.result = none := by
  have hmem := h.writes.mem_iff.mp (List.mem_append_right _ hi)
  have hnodup := h.writes.nodup_iff.mpr List.nodup_range
  have hnot : i ∉ written (completions labels) := fun hw =>
    (List.nodup_append.mp hnodup).2.2 i hw i hi rfl
  obtain ⟨probe, hp, hsent, hresult⟩ := h.specified_of_lt (List.mem_range.mp hmem)
  rw [sentAtOf, fromWrite_none hnot] at hsent
  rw [resultOf, fromWrite_none hnot] at hresult
  exact ⟨hnot, probe, hp, hsent, hresult⟩

theorem Processes.nodup_pending {w : World slab} (h : args.Processes uring labels w) :
    w.pending.Nodup :=
  (List.nodup_append.mp (h.writes.nodup_iff.mpr List.nodup_range)).2.1

theorem Processes.completed {w w' : World slab} (h : args.Processes uring labels w)
    (hstep : Proceeds uring (args.readers host) w (.complete entry event) w') :
    (∀ i, w'.run.probes[i]? = w.run.probes[i]?.map (Probe.after uring i · (entry, event))) ∧
      w.pending.Perm (entry.probe?.toList ++ w'.pending) := by
  cases hstep with
  | @complete st event st' failed front entry back tag hok =>
    have hs := h.invariant.sound_complete
    have hh := (hs.processed tag hok).1
    refine ⟨hh.probes, ?_⟩
    have hbefore := (outstanding_complete st .draining front back entry).filterMap Sqe.probe?
    have hafter := (outstanding_completed .draining front back hh).filterMap Sqe.probe?
    rw [List.filterMap_append, filterMap_request Multishot.entry_probe?
      (hs.request entry List.mem_cons_self) event, List.nil_append] at hafter
    have hcons : (entry :: (st.sq.waiting ++ (front ++ back))).filterMap Sqe.probe? =
        entry.probe?.toList ++ (st.sq.waiting ++ (front ++ back)).filterMap Sqe.probe? := by
      rw [List.filterMap_cons]
      cases entry.probe? <;> rfl
    rw [hcons] at hbefore
    exact hbefore.trans (hafter.symm.append_left _)

theorem Processes.observed_write {w w' : World slab} (h : args.Processes uring labels w)
    (hstep : Proceeds uring (args.readers host) w (.complete entry event) w')
    (hi : entry.probe? = some i) :
    w.statuses i = .queued ∧
      w'.statuses = Function.update w.statuses i (.write event.sentAt) := by
  obtain ⟨hprobes, hpending⟩ := h.completed hstep
  rw [hi] at hpending
  have hmem : i ∈ w.pending := hpending.mem_iff.mpr List.mem_cons_self
  have hgone : i ∉ w'.pending :=
    (List.nodup_cons.mp (hpending.nodup_iff.mp h.nodup_pending)).1
  obtain ⟨_, probe, hp, hsent, hresult⟩ := h.pending hmem
  constructor
  · rw [World.statuses_some hp, Probe.status, hsent]
    exact if_pos hmem
  · funext j
    by_cases hj : j = i
    · subst hj
      have hp' := hprobes j
      rw [hp, Option.map_some, Probe.after_write probe hi] at hp'
      rw [Function.update_self, World.statuses_some hp', Event.sentAt]
      by_cases hok : event.cqe.result ≥ 0
      · simp only [if_pos hok, Probe.status, hresult]
        rfl
      · simp only [if_neg hok, Probe.status, hsent, hgone]
        rfl
    · have hne : entry.probe? ≠ some j := by
        rw [hi]
        exact fun hc => hj (Option.some.inj hc).symm
      rw [Function.update_of_ne hj]
      refine World.statuses_eq ?_ ?_
      · rw [hprobes j]
        have hnone : answer? uring j (entry, event) = none := by
          rw [answer?_eq, identified?_write hi, Option.bind_none]
        rw [funext fun probe => Probe.after_quiet probe hne hnone]
        exact Option.map_id_apply
      · rw [hpending.mem_iff]
        exact ⟨List.mem_cons_of_mem _, fun hc => (List.mem_cons.mp hc).resolve_left hj⟩

theorem Processes.observed_other {w w' : World slab} (h : args.Processes uring labels w)
    (hstep : Proceeds uring (args.readers host) w (.complete entry event) w')
    (hnone : entry.probe? = none) :
    w'.statuses = match identified? uring (entry, event) with
      | some (i, reader, reply) => Function.update w.statuses i ((w.statuses i).reply reply.ip?
          (reader.queue.replies.classify reply) event.now)
      | none => w.statuses := by
  obtain ⟨hprobes, hpending⟩ := h.completed hstep
  rw [hnone] at hpending
  change w.pending.Perm w'.pending at hpending
  have hne (j : Nat) : entry.probe? ≠ some j := by
    rw [hnone]
    exact (Option.some_ne_none j).symm
  have hquiet (j : Nat) (hj : answer? uring j (entry, event) = none) :
      w'.statuses j = w.statuses j := by
    refine World.statuses_eq ?_ hpending.mem_iff.symm
    rw [hprobes j, funext fun probe => Probe.after_quiet probe (hne j) hj]
    exact Option.map_id_apply
  cases hid : identified? uring (entry, event) with
  | none =>
    funext j
    exact hquiet j (by rw [answer?_eq, hid, Option.bind_none])
  | some found =>
    obtain ⟨i, reader, reply⟩ := found
    funext j
    dsimp only
    by_cases hj : j = i
    · subst hj
      have hanswer : answer? uring j (entry, event) = some (reader, reply, event.now) := by
        rw [answer?_eq, hid, Option.bind_some]
        exact if_pos rfl
      rw [Function.update_self]
      cases hp : w.run.probes[j]? with
      | none =>
        have hp' := hprobes j
        rw [hp, Option.map_none] at hp'
        rw [World.statuses_none hp, World.statuses_none hp']
        rfl
      | some probe =>
        have hp' := hprobes j
        rw [hp, Option.map_some, Probe.after_eq probe (hne j), hanswer] at hp'
        rw [World.statuses_some hp, World.statuses_some hp',
          Probe.status_credit probe (answer?_identify hanswer)]
        rw [probe.status_congr hpending.mem_iff.symm]
    · rw [Function.update_of_ne hj]
      refine hquiet j ?_
      rw [answer?_eq, hid, Option.bind_some]
      exact if_neg fun hc => hj hc.symm

/-- Every step of the loop is a step of the trace as its probes see it. -/
theorem Processes.observed {w w' : World slab} (h : args.Processes uring labels w)
    (hstep : Proceeds uring (args.readers host) w l w') :
    Observation.Step w.statuses (l.observed uring) w'.statuses := by
  cases l with
  | submit result =>
    have hsame : w'.statuses = w.statuses := by
      cases hstep with
      | submit => exact World.statuses_perm rfl (outstanding_submit _ _).symm
      | busy => exact World.statuses_perm rfl (.refl _)
    rw [hsame]
    exact .nothing
  | drained =>
    have hsame : w'.statuses = w.statuses := by
      cases hstep with
      | drained => exact World.statuses_perm rfl (.of_eq (outstanding_drained _ _))
    rw [hsame]
    exact .nothing
  | complete entry event =>
    change Observation.Step _ (observe uring (entry, event)) _
    cases hp : entry.probe? with
    | some i =>
      obtain ⟨hqueued, he⟩ := h.observed_write hstep hp
      rw [observe, hp, he]
      exact .written hqueued
    | none =>
      rw [observe, hp, h.observed_other hstep hp]
      dsimp only
      cases identified? uring (entry, event) with
      | none => exact .nothing
      | some found => exact .replied

theorem start_statuses {st : RunState slab} (hstart : args.Starts host st) :
    (World.start st).statuses = fun _ => .queued := by
  have h : args.Processes (RecvMsgOutApi.layout host) [] (World.start st) := ⟨st, hstart, .refl⟩
  funext i
  cases hp : (World.start st).run.probes[i]? with
  | none => exact World.statuses_none hp
  | some probe =>
    have hi : i < args.probeCount := ttl?_lt (h.ttl? hp)
    have hpending : i ∈ (World.start st).pending := h.writes.mem_iff.mpr (List.mem_range.mpr hi)
    obtain ⟨_, probe', hp', hsent, _⟩ := h.pending hpending
    rw [hp] at hp'
    cases hp'
    rw [World.statuses_some hp, Probe.status, hsent]
    exact if_pos hpending

theorem Processes.refines {w : World slab} (h : args.Processes uring labels w) :
    Path Observation.Step (fun _ => .queued) (labels.map (Label.observed uring)) w.statuses := by
  obtain ⟨st, hstart, hpath⟩ := h
  rw [← start_statuses hstart]
  refine hpath.map (f := World.statuses) (g := Label.observed uring) ?_
  intro ls t l u hls hstep
  exact Processes.observed ⟨st, hstart, hls⟩ hstep

theorem Processes.status_fields {w : World slab} (h : args.Processes uring labels w)
    (hi : i < args.probeCount) :
    ∃ probe, w.run.probes[i]? = some probe ∧ probe.sentAt = (w.statuses i).sentAt ∧
      probe.result = (w.statuses i).result := by
  obtain ⟨probe, hp, hsent, hresult⟩ := h.specified_of_lt hi
  refine ⟨probe, hp, ?_⟩
  rw [World.statuses_some hp, Probe.status]
  cases hs : probe.sentAt with
  | none =>
    have hnone : probe.result = none := by
      rw [hresult, ← Option.not_isSome_iff_eq_none, Option.isSome_iff_ne_none]
      intro hne
      exact (resultOf_ne_none_iff.mp hne).1 (hsent.symm.trans hs)
    rw [hnone]
    dsimp only
    split <;> exact ⟨rfl, rfl⟩
  | some since =>
    cases hr : probe.result with
    | none => exact ⟨rfl, rfl⟩
    | some result => exact ⟨rfl, rfl⟩

theorem Processes.status_queued_iff {w : World slab} (h : args.Processes uring labels w)
    (hi : i < args.probeCount) :
    w.statuses i = .queued ↔
      ∃ slot outgoing, slab.get w.run.sending slot = some outgoing ∧ outgoing.probe.index = i := by
  have hpending : w.statuses i = .queued ↔ i ∈ w.pending := by
    obtain ⟨probe, hp, hsent, _⟩ := h.status_fields hi
    constructor
    · intro hq
      rw [hq] at hsent
      rw [World.statuses_some hp, Probe.status, hsent] at hq
      by_contra hnot
      rw [if_neg hnot] at hq
      cases hq
    · intro hmem
      obtain ⟨_, probe', hp', hsent', _⟩ := h.pending hmem
      rw [hp] at hp'
      cases hp'
      rw [World.statuses_some hp, Probe.status, hsent']
      exact if_pos hmem
  rw [hpending, World.pending, List.mem_filterMap]
  have hget := h.invariant.sound.writes.get_iff
  constructor
  · rintro ⟨entry, hmem, hprobe⟩
    cases h.invariant.sound.request entry hmem with
    | read => cases hprobe
    | @write k o hk ho =>
      refine ⟨k, o, (hget k o).mpr ?_, Option.some.inj hprobe⟩
      exact List.mem_filterMap.mpr ⟨_, hmem, writeEntry_pending? hk⟩
    | timeout => cases hprobe
  · rintro ⟨slot, outgoing, hslot, hindex⟩
    obtain ⟨entry, hmem, hentry⟩ := List.mem_filterMap.mp ((hget slot outgoing).mp hslot)
    cases h.invariant.sound.request entry hmem with
    | read => cases hentry
    | @write k o hk ho =>
      rw [writeEntry_pending? hk] at hentry
      cases hentry
      exact ⟨_, hmem, congrArg some hindex⟩
    | timeout => cases hentry

/-- The loop refines the lives of its probes. Its steps, in any order and batching, are steps of one
probe each in the order of its life, from all probes queued; the fields of a probe say where it
stands, with the slab, which holds the send buffers of the queued ones and of no others; and
whatever the run meets later, no probe goes back. -/
theorem Reaches.loop_refines {w : World slab} (h : args.Reaches uring labels w) :
    Path Observation.Step (fun _ => .queued) (labels.map (Label.observed uring)) w.statuses ∧
    (∀ i < args.probeCount,
      (∃ probe, w.run.probes[i]? = some probe ∧ probe.sentAt = (w.statuses i).sentAt ∧
        probe.result = (w.statuses i).result) ∧
      (w.statuses i = .queued ↔ ∃ slot outgoing,
        slab.get w.run.sending slot = some outgoing ∧ outgoing.probe.index = i)) ∧
    ∀ more (w' : World slab), Path (Step uring (args.readers host)) w more w' →
      ∀ i, (w.statuses i).Follows (w'.statuses i) := by
  refine ⟨h.processes.refines, fun i hi =>
    ⟨h.processes.status_fields hi, h.processes.status_queued_iff hi⟩, ?_⟩
  intro more w' hpath
  obtain ⟨st, hstart, hbefore⟩ := h
  refine Observation.follows_path (hpath.map (f := World.statuses) (g := Label.observed uring) ?_)
  intro ls t l u hls hstep
  have hreach : args.Reaches uring (labels ++ ls) t := ⟨st, hstart, hbefore.trans hls⟩
  exact hreach.processes.observed hstep.proceeds

/-- The probe of the loopback address that is sent at 7 and answered at 9 stays so, whatever the
trace meets after. -/
theorem loop_refines_loopback :
    ∃ labels, ∃ w : World (.vec Outgoing), (loopback 1 2 1).Reaches (.layout .x86_64) labels w ∧
      w.statuses 0 = .answered 7 ⟨some (.v4 .localhost), 2, .destination⟩ ∧
      ∀ more (w' : World (.vec Outgoing)),
        Path (Step (.layout .x86_64) ((loopback 1 2 1).readers .x86_64)) w more w' →
          w'.statuses 0 = w.statuses 0 := by
  obtain ⟨k, o, ho, ⟨w, hreach, _⟩, _⟩ := loopback_orders 7 9
  obtain ⟨_, hfields, hlater⟩ := hreach.loop_refines
  obtain ⟨probe, hp, hsent, hresult⟩ := (hfields 0 (by decide)).1
  obtain ⟨probe', hp', hsent', hresult'⟩ := hreach.processes.specified_of_lt (i := 0) (by decide)
  rw [hp] at hp'
  cases hp'
  change probe.sentAt = sentAtOf 0 ((writeEntry k o, sent k o 7) :: _) at hsent'
  rw [hsent, sentAtOf, fromWrite_loopback ho] at hsent'
  rw [hresult] at hresult'
  have hanswered := hresult'.trans (resultOf_loopback ho [])
  have hstatus : w.statuses 0 = .answered 7 ⟨some (.v4 .localhost), 2, .destination⟩ := by
    cases hs : w.statuses 0 with
    | answered since outcome =>
      rw [hs] at hsent' hanswered
      cases hsent'
      cases hanswered
      rfl
    | _ =>
      rw [hs] at hanswered
      cases hanswered
  refine ⟨_, w, hreach, hstatus, ?_⟩
  intro more w' hpath
  have hfollows := hlater more w' hpath 0
  rw [hstatus] at hfollows ⊢
  exact hfollows.answered

end RunArgs

end Ringroute
