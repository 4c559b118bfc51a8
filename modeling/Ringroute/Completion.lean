import Ringroute.Kernel

namespace Ringroute
open Library
set_option autoImplicit true

/-- The address of a reply's sender, if it is an internet address. -/
def Reply.ip? (reply : Reply) : Option IpAddr :=
  reply.source.bind fun addr => addr.asSocket.map SocketAddr.ip

theorem Reply.sourceIp_ok {reply : Reply} {ip : Option IpAddr} (h : reply.sourceIp = .ok ip) :
    ip = reply.ip? := by
  cases hs : reply.source with
  | none =>
    simp only [Reply.sourceIp, hs] at h
    cases h
    simp only [Reply.ip?, hs, Option.bind_none]
  | some addr =>
    cases addr with
    | inet socket =>
      simp only [Reply.sourceIp, hs] at h
      cases h
      simp only [Reply.ip?, hs, SockAddr.asSocket, Option.bind_some, Option.map_some]
    | other family =>
      simp only [Reply.sourceIp, hs] at h
      cases h

/-- What a reply makes of probe number `i`. -/
def Probe.credit (reader : Multishot) (reply : Reply) (now : Instant) (i : Nat) (probe : Probe) :
    Probe :=
  if (reader.queue.replies.identify reply).map ProbeId.index = some i ∧ probe.result = none then
    { probe with
      result := probe.sentAt.map fun sentAt =>
        { source := reply.ip?
          rtt := now - sentAt
          kind := reader.queue.replies.classify reply } }
  else probe

section Credit

variable {reader : Multishot} {reply : Reply} {now : Instant} {i : Nat} {probe : Probe}

theorem Probe.credit_other
    (h : (reader.queue.replies.identify reply).map ProbeId.index ≠ some i) :
    probe.credit reader reply now i = probe :=
  if_neg fun hc => h hc.1

theorem Probe.credit_answered (h : probe.result ≠ none) :
    probe.credit reader reply now i = probe :=
  if_neg fun hc => h hc.2

theorem Probe.credit_unsent (h : probe.sentAt = none) :
    probe.credit reader reply now i = probe := by
  simp only [Probe.credit]
  split
  · rename_i hc
    obtain ⟨ttl, sentAt, result⟩ := probe
    obtain ⟨_, hresult⟩ := hc
    change sentAt = none at h
    change result = none at hresult
    subst h hresult
    rfl
  · rfl

end Credit

theorem map_set_getElem? {probes : List Probe} {f : Nat → Probe → Probe} {j : Nat}
    (hj : probes[j]? = some probe) (hother : ∀ i, i ≠ j → ∀ p, f i p = p) (i : Nat) :
    (probes.set j (f j probe))[i]? = probes[i]?.map (f i) := by
  rw [List.getElem?_set]
  by_cases hi : j = i
  · subst hi
    obtain ⟨hlt, _⟩ := List.getElem?_eq_some_iff.mp hj
    rw [if_pos rfl, if_pos hlt, hj, Option.map_some]
  · rw [if_neg hi, funext (hother i (Ne.symm hi))]
    exact (Option.map_id_apply).symm

theorem map_getElem?_id {probes : List Probe} {f : Nat → Probe → Probe}
    (hf : ∀ i p, probes[i]? = some p → f i p = p) (i : Nat) :
    probes[i]? = probes[i]?.map (f i) := by
  cases hp : probes[i]? with
  | none => rfl
  | some p => rw [Option.map_some, hf i p hp]

section Record

variable {reader : Multishot} {reply : Reply} {id : ProbeId} {now : Instant}
  {probes probes' : List Probe}

theorem Probe.credit_identified (hid : reader.queue.replies.identify reply = some id)
    {j : Nat} (hj : j ≠ id.index) (probe : Probe) : probe.credit reader reply now j = probe := by
  apply Probe.credit_other
  rw [hid]
  exact fun hc => hj (Option.some.inj hc).symm

theorem Probe.credit_kept (hid : reader.queue.replies.identify reply = some id)
    (hc : ∀ probe : Probe, probes[id.index]? = some probe →
      probe.credit reader reply now id.index = probe) :
    ∀ j (probe : Probe), probes[j]? = some probe → probe.credit reader reply now j = probe := by
  intro j probe hp
  by_cases hj : j = id.index
  · subst hj
    exact hc probe hp
  · exact Probe.credit_identified hid hj probe

theorem record_cases (h : record reader reply now probes = .ok probes') :
    (probes' = probes ∧ ∀ j (probe : Probe), probes[j]? = some probe →
      probe.credit reader reply now j = probe) ∨
    ∃ id probe, reader.queue.replies.identify reply = some id ∧ probes[id.index]? = some probe ∧
      probes' = probes.set id.index (probe.credit reader reply now id.index) := by
  unfold record at h
  split at h
  · rename_i hid
    cases h
    refine .inl ⟨rfl, fun j probe _ => Probe.credit_other ?_⟩
    rw [hid]
    exact (Option.some_ne_none _).symm
  · rename_i id hid
    split at h
    · rename_i hnone
      cases h
      refine .inl ⟨rfl, Probe.credit_kept hid fun probe hp => ?_⟩
      rw [hnone] at hp
      cases hp
    · rename_i probe hprobe
      have hstay (hc : probe.credit reader reply now id.index = probe) :
          ∀ j (probe : Probe), probes[j]? = some probe →
            probe.credit reader reply now j = probe :=
        Probe.credit_kept hid fun probe' hp => by
          rw [hprobe] at hp
          cases hp
          exact hc
      split at h
      · rename_i hres
        cases h
        exact .inl ⟨rfl, hstay (Probe.credit_answered (Option.isSome_iff_ne_none.mp hres))⟩
      · rename_i hres
        split at h
        · rename_i hsent
          cases h
          exact .inl ⟨rfl, hstay (Probe.credit_unsent hsent)⟩
        · rename_i sentAt hsent
          cases hip : reply.sourceIp with
          | error site =>
            rw [hip] at h
            cases h
          | ok source =>
            rw [hip, Reply.sourceIp_ok hip] at h
            cases h
            have hnone : probe.result = none := by simpa using hres
            have hcredit : probe.credit reader reply now id.index =
                { probe with
                  result := some
                    { source := reply.ip?
                      rtt := now - sentAt
                      kind := reader.queue.replies.classify reply } } := by
              simp only [Probe.credit, hid, hnone, hsent, Option.map_some, and_self, if_true]
            exact .inr ⟨id, probe, hid, hprobe, hcredit ▸ rfl⟩

theorem record_getElem? (h : record reader reply now probes = .ok probes') (i : Nat) :
    probes'[i]? = probes[i]?.map (Probe.credit reader reply now i) := by
  rcases record_cases h with ⟨rfl, hkept⟩ | ⟨id, probe, hid, hprobe, rfl⟩
  · exact map_getElem?_id (f := Probe.credit reader reply now) hkept i
  · exact map_set_getElem? (f := Probe.credit reader reply now) hprobe
      (fun j hj => Probe.credit_identified hid hj) i

end Record

section Effects

variable {host : Host} (uring : RecvMsgOutApi host)

/-- What a completion makes of probe number `i`. -/
def Probe.after (i : Nat) (probe : Probe) : Sqe × Event → Probe
  | (entry, event) =>
    match entry.opcode with
    | .sendMsg outgoing =>
      if outgoing.probe.index = i ∧ event.cqe.result ≥ 0 then
        { probe with sentAt := some event.now }
      else probe
    | .recvMsgMulti reader _ =>
      if event.cqe.result ≥ 0 then
        match receive uring reader event with
        | .ok (some reply) => probe.credit reader reply event.now i
        | _ => probe
      else probe
    | .timeout _ => probe

theorem Probe.after_ttl (i : Nat) (probe : Probe) (c : Sqe × Event) :
    (probe.after uring i c).ttl = probe.ttl := by
  obtain ⟨entry, event⟩ := c
  simp only [Probe.after]
  split
  · split <;> rfl
  · split
    · split
      · unfold Probe.credit
        split <;> rfl
      · rfl
    · rfl
  · rfl

variable {uring}

theorem readProbes_getElem? (h : readProbes uring probes event m = .ok probes') (i : Nat) :
    probes'[i]? = probes[i]?.map (Probe.after uring i · (m.entry, event)) := by
  have hid : probes[i]? = probes[i]?.map fun p => p := Option.map_id_apply.symm
  unfold readProbes at h
  simp only [Probe.after, Multishot.entry]
  split at h
  · rename_i hret
    simp only [if_pos hret]
    unfold handleRead at h
    cases hrecv : receive uring m event with
    | error site =>
      rw [hrecv] at h
      cases h
    | ok reply =>
      rw [hrecv] at h
      cases reply with
      | none =>
        cases h
        exact hid
      | some reply => exact record_getElem? h i
  · rename_i hret
    cases h
    simp only [if_neg hret]
    exact hid

theorem completeWrite_ok (uring : RecvMsgOutApi host) (k : Nat) {st st' : RunState slab}
    (h : completeWrite st event outgoing = .ok (st', failed)) :
    st'.sq = st.sq ∧ st'.sending = st.sending ∧
      ∀ i, st'.probes[i]? = st.probes[i]?.map
        (Probe.after uring i · (writeEntry k outgoing, event)) := by
  unfold completeWrite at h
  split at h
  · rename_i hret
    split at h
    · cases h
    · rename_i probe hprobe
      cases h
      refine ⟨rfl, rfl, ?_⟩
      intro i
      have he : probe.after uring outgoing.probe.index (writeEntry k outgoing, event) =
          { probe with sentAt := some event.now } := if_pos ⟨rfl, hret⟩
      rw [← he]
      refine map_set_getElem?
        (f := fun i p => p.after uring i (writeEntry k outgoing, event)) hprobe ?_ i
      intro j hj p
      exact if_neg fun hc => hj hc.1.symm
  · rename_i hret
    cases h
    refine ⟨rfl, rfl, ?_⟩
    exact map_getElem?_id (f := fun i p => p.after uring i (writeEntry k outgoing, event))
      fun i p _ => if_neg fun hc => hret hc.2

/-- The reads a completion makes the loop push. -/
def Sqe.rearmed (entry : Sqe) (event : Event) : List Sqe :=
  match entry.reader? with
  | some reader => if event.cqe.more then [] else [reader.entry]
  | none => []

@[simp] theorem Multishot.entry_rearmed (m : Multishot) (e : Event) :
    m.entry.rearmed e = if e.cqe.more then [] else [m.entry] := rfl

theorem completeRead_ok {st st' : RunState slab}
    (h : completeRead uring st event m = .ok (st', failed)) :
    st.sq.pushAll (m.entry.rearmed event) = some st'.sq ∧ st'.sending = st.sending ∧
      ∀ i, st'.probes[i]? = st.probes[i]?.map (Probe.after uring i · (m.entry, event)) := by
  unfold completeRead at h
  split at h
  · cases h
  · rename_i probes hread
    have hprobes := readProbes_getElem? hread
    simp only [Multishot.entry_rearmed]
    dsimp only at h
    split at h
    · rename_i hmore
      cases h
      rw [if_pos hmore]
      exact ⟨rfl, rfl, hprobes⟩
    · rename_i hmore
      split at h
      · cases h
      · rename_i sq hsq
        cases h
        rw [if_neg hmore]
        refine ⟨?_, rfl, hprobes⟩
        have hpush : st.sq.push m.entry = some sq := hsq
        simp only [SubmissionRing.pushAll, hpush, Option.bind_some]

theorem completeRead_error {st : RunState slab} {returned : Returned slab}
    (h : completeRead uring st event m = .error returned) :
    (∃ site, returned = ⟨.panic site, st⟩ ∧
      readProbes uring st.probes event m = .error site) ∨
    (returned.exit = .pushError ∧ returned.state.sq = st.sq ∧
      returned.state.sending = st.sending ∧ event.cqe.more = false ∧
      st.sq.push m.entry = none) := by
  unfold completeRead at h
  split at h
  · rename_i site hread
    cases h
    exact .inl ⟨site, rfl, hread⟩
  · dsimp only at h
    split at h
    · cases h
    · rename_i hmore
      split at h
      · rename_i hsq
        cases h
        exact .inr ⟨rfl, rfl, rfl, by simpa using hmore, hsq⟩
      · cases h

variable {readers : List Multishot} {st : RunState slab} {event : Event}

theorem finish_ok {state : State} {result result' : RunState slab × Bool}
    (h : finish state result = .ok result') :
    result' = result ∧ result.1.done state = false := by
  unfold finish at h
  split at h
  · cases h
  · rename_i hdone
    cases h
    exact ⟨rfl, by simpa using hdone⟩

theorem finish_error {state : State} {result : RunState slab × Bool} {returned : Returned slab}
    (h : finish state result = .error returned) :
    returned = ⟨.ok result.1.probes, result.1⟩ ∧ result.1.done state = true := by
  unfold finish at h
  split at h
  · rename_i hdone
    cases h
    exact ⟨rfl, hdone⟩
  · cases h

theorem onCompletion_eq (uring : RecvMsgOutApi host) (readers : List Multishot)
    (st : RunState slab) {state : State} (h : event.cqe.userData.state = some state) :
    onCompletion uring readers st event =
      (process uring readers st event).bind (finish state) := by
  rw [onCompletion, process, h]

theorem onCompletion_processed {state : State} (h : event.cqe.userData.state = some state)
    (hp : process uring readers st event = .ok (st', failed)) :
    onCompletion uring readers st event =
      if st'.done state then .error ⟨.ok st'.probes, st'⟩ else .ok (st', failed) := by
  rw [onCompletion_eq uring readers st h, hp]
  rfl

theorem onCompletion_ok {result : RunState slab × Bool}
    (h : onCompletion uring readers st event = .ok result) :
    process uring readers st event = .ok result ∧
      ∃ state, event.cqe.userData.state = some state ∧ result.1.done state = false := by
  cases hstate : event.cqe.userData.state with
  | none =>
    rw [onCompletion, hstate] at h
    cases h
  | some state =>
    rw [onCompletion_eq uring readers st hstate] at h
    cases hp : process uring readers st event with
    | error returned =>
      rw [hp] at h
      cases h
    | ok result' =>
      rw [hp] at h
      obtain ⟨rfl, hdone⟩ := finish_ok h
      exact ⟨rfl, state, rfl, hdone⟩

theorem onCompletion_error {returned : Returned slab}
    (h : onCompletion uring readers st event = .error returned) :
    process uring readers st event = .error returned ∨
      ∃ st' failed state, process uring readers st event = .ok (st', failed) ∧
        event.cqe.userData.state = some state ∧ st'.done state = true ∧
        returned = ⟨.ok st'.probes, st'⟩ := by
  cases hstate : event.cqe.userData.state with
  | none =>
    rw [onCompletion, hstate] at h
    cases h
    refine .inl ?_
    rw [process, hstate]
  | some state =>
    rw [onCompletion_eq uring readers st hstate] at h
    cases hp : process uring readers st event with
    | error returned' =>
      rw [hp] at h
      cases h
      exact .inl rfl
    | ok result =>
      rw [hp] at h
      obtain ⟨rfl, hdone⟩ := finish_error h
      exact .inr ⟨result.1, result.2, state, rfl, rfl, hdone, rfl⟩

theorem read_state (m : Multishot) (tag : event.cqe.userData = m.entry.userData) :
    event.cqe.userData.state = some .read := by
  rw [tag, Multishot.entry, UserData.state_tag]

theorem write_state (tag : event.cqe.userData = (writeEntry k outgoing).userData) :
    event.cqe.userData.state = some .write := by
  rw [tag, writeEntry, UserData.state_tag]

theorem timeout_state (tag : event.cqe.userData = (timeoutEntry d).userData) :
    event.cqe.userData.state = some .timeout := by
  rw [tag, timeoutEntry, ← UserData.new_withSlot_zero, UserData.state_tag]

theorem process_read (uring : RecvMsgOutApi host) (st : RunState slab) {m : Multishot}
    (hm : readers[m.slot.toNat]? = some m) (tag : event.cqe.userData = m.entry.userData) :
    process uring readers st event = completeRead uring st event m := by
  simp only [process, read_state m tag, dispatch]
  simp only [tag, Multishot.entry, UserData.slot_tag, hm]

theorem process_write (uring : RecvMsgOutApi host) (readers : List Multishot) (hk : k < 2 ^ 16)
    (tag : event.cqe.userData = (writeEntry k outgoing).userData)
    (hremove : slab.remove st.sending k = some (outgoing, sending)) :
    process uring readers st event =
      completeWrite { st with sending := sending } event outgoing := by
  simp only [process, write_state tag, dispatch]
  simp only [tag, writeEntry, UserData.slot_tag, UInt16.toNat_ofNat_of_lt' hk, hremove]

theorem process_timeout (tag : event.cqe.userData = (timeoutEntry d).userData) :
    process uring readers st event = .ok (st, event.cqe.result != -etime) := by
  simp only [process, timeout_state tag, dispatch]

theorem onCompletion_read (uring : RecvMsgOutApi host) (st : RunState slab) {m : Multishot}
    (hm : readers[m.slot.toNat]? = some m) (tag : event.cqe.userData = m.entry.userData) :
    onCompletion uring readers st event =
      (completeRead uring st event m).bind (finish .read) := by
  rw [onCompletion_eq uring readers st (read_state m tag), process_read uring st hm tag]

theorem onCompletion_timeout (tag : event.cqe.userData = (timeoutEntry d).userData) :
    onCompletion uring readers st event = .error ⟨.ok st.probes, st⟩ := by
  have hdone : st.done .timeout = true := Bool.or_true _
  rw [onCompletion_eq uring readers st (timeout_state tag), process_timeout tag]
  simp only [Except.bind, finish, hdone, if_true]

/-- What is left of a request after one of its completions. -/
def Sqe.remaining (entry : Sqe) (event : Event) : List Sqe :=
  if entry.finished event then [] else [entry]

/-- What a completion of `entry` that does not stop the run half way does to the loop's state. -/
structure Handles (uring : RecvMsgOutApi host) (st : RunState slab) (entry : Sqe) (event : Event)
    (st' : RunState slab) : Prop where
  ring : st.sq.pushAll (entry.rearmed event) = some st'.sq
  probes : ∀ i, st'.probes[i]? = st.probes[i]?.map (Probe.after uring i · (entry, event))

theorem Handles.length_probes {entry : Sqe} {st' : RunState slab}
    (h : Handles uring st entry event st') : st'.probes.length = st.probes.length := by
  have hn (i : Nat) : st'.probes.length ≤ i ↔ st.probes.length ≤ i := by
    rw [← List.getElem?_eq_none_iff, ← List.getElem?_eq_none_iff, h.probes, Option.map_eq_none_iff]
  have h₁ := (hn st'.probes.length).mp (Nat.le_refl _)
  have h₂ := (hn st.probes.length).mpr (Nat.le_refl _)
  omega

theorem read_outstanding (m : Multishot) (event : Event) (os : List Sqe) :
    m.entry.remaining event ++ m.entry.rearmed event ++ os = m.entry :: os := by
  simp only [Sqe.remaining, Multishot.entry_finished, Multishot.entry_rearmed]
  by_cases hmore : event.cqe.more = true <;> simp [hmore]

theorem Sound.kept (hs : Sound readers st os) (hh : Handles uring st entry event st')
    (hsending : st'.sending = st.sending) : Sound readers st' os := by
  refine ⟨?_, hs.reads, ?_⟩
  · intro e hmem
    rw [hh.length_probes]
    exact hs.request e hmem
  · rw [hsending]
    exact hs.writes

theorem Sound.completion_read {m : Multishot} (hs : Sound readers st (m.entry :: os))
    (hm : readers[m.slot.toNat]? = some m) (tag : event.cqe.userData = m.entry.userData) :
    (∃ st' failed, process uring readers st event = .ok (st', failed) ∧
      Handles uring st m.entry event st' ∧ Sound readers st' (m.entry :: os)) ∨
    (∃ site : PanicSite, readProbes uring st.probes event m = .error site ∧
      process uring readers st event = .error ⟨.panic site, st⟩) ∨
    (∃ st' : RunState slab, event.cqe.more = false ∧ st.sq.push m.entry = none ∧
      st'.sq = st.sq ∧ st'.sending = st.sending ∧
      process uring readers st event = .error ⟨.pushError, st'⟩) := by
  rw [process_read uring st hm tag]
  cases hr : completeRead uring st event m with
  | ok result =>
    obtain ⟨st', failed⟩ := result
    obtain ⟨hring, hsending, hprobes⟩ := completeRead_ok hr
    have hh : Handles uring st m.entry event st' := ⟨hring, hprobes⟩
    exact .inl ⟨st', failed, rfl, hh, hs.kept hh hsending⟩
  | error returned =>
    obtain ⟨exit, st'⟩ := returned
    rcases completeRead_error hr with ⟨site, hsite, hread⟩ |
      ⟨hexit, hring, hsending, hmore, hpush⟩
    · cases hsite
      exact .inr (.inl ⟨site, hread, rfl⟩)
    · cases hexit
      exact .inr (.inr ⟨st', hmore, hpush, hring, hsending, rfl⟩)

theorem Sound.completion_write (uring : RecvMsgOutApi host)
    (hs : Sound readers st (writeEntry k o :: os)) (hk : k < 2 ^ 16)
    (ho : o.probe.index < st.probes.length)
    (tag : event.cqe.userData = (writeEntry k o).userData) :
    ∃ st' failed, process uring readers st event = .ok (st', failed) ∧
      Handles uring st (writeEntry k o) event st' ∧ Sound readers st' os := by
  have hw := hs.writes
  rw [List.filterMap_cons, writeEntry_pending? hk] at hw
  obtain ⟨sending, hremove, hholds⟩ := hw.remove
  rw [process_write uring readers hk tag hremove]
  cases hr : completeWrite { st with sending := sending } event o with
  | ok result =>
    obtain ⟨st', failed⟩ := result
    obtain ⟨hsq, hsending, hprobes⟩ := completeWrite_ok uring k hr
    have hh : Handles uring st (writeEntry k o) event st' := ⟨by rw [hsq]; rfl, hprobes⟩
    refine ⟨st', failed, rfl, hh, ?_, hs.reads, ?_⟩
    · intro e hmem
      rw [hh.length_probes]
      exact hs.request e (List.mem_cons_of_mem _ hmem)
    · rw [hsending]
      exact hholds
  | error returned =>
    exfalso
    obtain ⟨probe, hprobe⟩ : ∃ probe, st.probes[o.probe.index]? = some probe :=
      ⟨_, List.getElem?_eq_getElem ho⟩
    simp only [completeWrite, hprobe] at hr
    split at hr <;> cases hr

/-- What a completion of an unfinished request can do, with the invariant it keeps. -/
theorem Sound.completion (uring : RecvMsgOutApi host) (hs : Sound readers st (entry :: os))
    (tag : event.cqe.userData = entry.userData) :
    (∃ st' failed, process uring readers st event = .ok (st', failed) ∧
      Handles uring st entry event st' ∧
      Sound readers st' (entry.remaining event ++ entry.rearmed event ++ os)) ∨
    (∃ (m : Multishot) (site : PanicSite), entry = m.entry ∧
      readProbes uring st.probes event m = .error site ∧
      process uring readers st event = .error ⟨.panic site, st⟩) ∨
    (∃ (m : Multishot) (st' : RunState slab), entry = m.entry ∧ event.cqe.more = false ∧
      st.sq.push m.entry = none ∧ st'.sq = st.sq ∧ st'.sending = st.sending ∧
      process uring readers st event = .error ⟨.pushError, st'⟩) := by
  have hreq := hs.request entry List.mem_cons_self
  cases hreq with
  | @read m hm =>
    rw [read_outstanding]
    rcases hs.completion_read hm tag with hok | ⟨site, hpanic⟩ | ⟨st', hpush⟩
    · exact .inl hok
    · exact .inr (.inl ⟨m, site, rfl, hpanic⟩)
    · exact .inr (.inr ⟨m, st', rfl, hpush⟩)
  | write hk ho => exact .inl (hs.completion_write uring hk ho tag)
  | @timeout d =>
    rw [process_timeout tag]
    refine .inl ⟨st, _, rfl, ⟨rfl, ?_⟩, ?_⟩
    · exact fun i => Option.map_id_apply.symm
    · exact ⟨fun e hmem => hs.request e (List.mem_cons_of_mem _ hmem), hs.reads, hs.writes⟩

theorem Sound.processed (hs : Sound readers st (entry :: os))
    (tag : event.cqe.userData = entry.userData)
    (h : process uring readers st event = .ok (st', failed)) :
    Handles uring st entry event st' ∧
      Sound readers st' (entry.remaining event ++ entry.rearmed event ++ os) := by
  rcases hs.completion uring tag with ⟨st₁, failed₁, he, hh, hs'⟩ | ⟨m, site, _, _, he⟩ |
    ⟨m, st₁, _, _, _, _, _, he⟩
  · rw [he] at h
    cases h
    exact ⟨hh, hs'⟩
  · rw [he] at h
    cases h
  · rw [he] at h
    cases h

/-- The half of the done condition that does not look at the completion. -/
def RunState.complete (st : RunState slab) : Bool :=
  slab.isEmpty st.sending && reachedTarget st.probes

theorem RunState.done_iff (st : RunState slab) (state : State) :
    st.done state = true ↔ st.complete = true ∨ state = .timeout := by
  simp only [RunState.done, RunState.complete, Bool.or_eq_true, beq_iff_eq]

theorem Sqe.Request.state_some {entry : Sqe} (h : entry.Request readers n)
    (tag : event.cqe.userData = entry.userData) :
    ∃ state, event.cqe.userData.state = some state := by
  cases h with
  | read => exact ⟨_, read_state _ tag⟩
  | write => exact ⟨_, write_state tag⟩
  | timeout => exact ⟨_, timeout_state tag⟩

theorem Sqe.Request.state_timeout (h : entry.Request readers n)
    (tag : event.cqe.userData = entry.userData) (hstate : event.cqe.userData.state = some state) :
    state = .timeout ↔ ∃ d, entry = timeoutEntry d := by
  cases h with
  | read =>
    rw [read_state _ tag] at hstate
    cases hstate
    refine iff_of_false State.noConfusion ?_
    rintro ⟨d, hd⟩
    exact Multishot.entry_ne_timeoutEntry _ d hd
  | write =>
    rw [write_state tag] at hstate
    cases hstate
    refine iff_of_false State.noConfusion ?_
    rintro ⟨d, hd⟩
    exact writeEntry_ne_timeoutEntry _ _ d hd
  | @timeout d =>
    rw [timeout_state tag] at hstate
    cases hstate
    exact iff_of_true rfl ⟨d, rfl⟩

theorem Sound.completion_ok (hs : Sound readers st (entry :: os))
    (tag : event.cqe.userData = entry.userData)
    (h : onCompletion uring readers st event = .ok (st', failed)) :
    (∀ d, entry ≠ timeoutEntry d) ∧ st'.complete = false := by
  obtain ⟨_, state, hstate, hdone⟩ := onCompletion_ok h
  have hnot : ¬ (st'.complete = true ∨ state = .timeout) := by
    rw [← RunState.done_iff, hdone]
    exact Bool.false_ne_true
  rw [(hs.request entry List.mem_cons_self).state_timeout tag hstate] at hnot
  exact ⟨fun d hd => hnot (.inr ⟨d, hd⟩), Bool.eq_false_iff.mpr fun hc => hnot (.inl hc)⟩

/-- A completion the run ends on: it is processed and the trace is done, or the reply makes the
loop panic, or the read cannot be armed again. -/
inductive Ending (uring : RecvMsgOutApi host) (readers : List Multishot) (st : RunState slab)
    (entry : Sqe) (event : Event) : Returned slab → Prop where
  | done (hp : process uring readers st event = .ok (st', failed))
      (hdone : st'.complete = true ∨ ∃ d, entry = timeoutEntry d) :
      Ending uring readers st entry event ⟨.ok st'.probes, st'⟩
  | panic {m : Multishot} (he : entry = m.entry)
      (hread : readProbes uring st.probes event m = .error site) :
      Ending uring readers st entry event ⟨.panic site, st⟩
  | full {m : Multishot} (he : entry = m.entry) (hmore : event.cqe.more = false)
      (hpush : st.sq.push m.entry = none) (hring : st'.sq = st.sq)
      (hsending : st'.sending = st.sending) :
      Ending uring readers st entry event ⟨.pushError, st'⟩

theorem Sound.completion_error (hs : Sound readers st (entry :: os))
    (tag : event.cqe.userData = entry.userData)
    (h : onCompletion uring readers st event = .error returned) :
    Ending uring readers st entry event returned := by
  rcases onCompletion_error h with h | ⟨st', failed, state, hp, hstate, hdone, rfl⟩
  · rcases hs.completion uring tag with ⟨st₁, failed₁, he, _⟩ | ⟨m, site, hm, hread, he⟩ |
      ⟨m, st₁, hm, hmore, hpush, hring, hsending, he⟩
    · rw [he] at h
      cases h
    · rw [he] at h
      cases h
      exact .panic hm hread
    · rw [he] at h
      cases h
      exact .full hm hmore hpush hring hsending
  · rw [RunState.done_iff, (hs.request entry List.mem_cons_self).state_timeout tag hstate] at hdone
    exact .done hp hdone

end Effects

end Ringroute
