import Ringroute.Net.Cmsg
import Ringroute.FirstBatch

namespace Ringroute
open Library
set_option autoImplicit true

/-- What a completion of a read comes with: if it was successful, a buffer of the length it reports,
which has room for the header and the fields the read reserved. Its contents are any bytes. -/
def Delivered (reader : Multishot) (event : Event) : Prop :=
  event.cqe.result ≥ 0 → ∃ id buffer, event.cqe.bufferId = some id ∧
    event.getBuf id event.cqe.result.toNat = some buffer ∧
    buffer.length = event.cqe.result.toNat ∧
    sizeOfRecvmsgOut + reader.msghdr.msgNamelen + reader.msghdr.msgControllen ≤ buffer.length

section Reading

variable {host : Host} (uring : RecvMsgOutApi host)

/-- A buffer with room for the fields is taken apart, whatever it holds. -/
theorem parse_ok (msghdr : Msghdr)
    (h : sizeOfRecvmsgOut + msghdr.msgNamelen + msghdr.msgControllen ≤ buffer.length) :
    ∃ message, uring.parse buffer msghdr = some message ∧
      message.controlData.length ≤ msghdr.msgControllen := by
  let rest := buffer.drop sizeOfRecvmsgOut
  have hrest : rest.length = buffer.length - sizeOfRecvmsgOut := List.length_drop
  have hheader : (buffer.take sizeOfRecvmsgOut).length = sizeOfRecvmsgOut := by
    rw [List.length_take]
    omega
  have hcontrol : ((rest.drop msghdr.msgNamelen).take msghdr.msgControllen).length =
      msghdr.msgControllen := by
    rw [List.length_take, List.length_drop]
    omega
  have hsplit : (RecvMsgHeader.read host (buffer.take sizeOfRecvmsgOut)).bytes host ++
      rest.take msghdr.msgNamelen ++ (rest.drop msghdr.msgNamelen).take msghdr.msgControllen ++
      (rest.drop msghdr.msgNamelen).drop msghdr.msgControllen = buffer := by
    rw [RecvMsgHeader.bytes_read host hheader, List.append_assoc, List.append_assoc,
      List.take_append_drop, List.take_append_drop, List.take_append_drop]
  have hparse := uring.parse_eq (.read host (buffer.take sizeOfRecvmsgOut))
    (rest.take msghdr.msgNamelen) ((rest.drop msghdr.msgNamelen).take msghdr.msgControllen)
    ((rest.drop msghdr.msgNamelen).drop msghdr.msgControllen) msghdr
    (by rw [List.length_take]; omega) hcontrol
  rw [hsplit] at hparse
  refine ⟨_, hparse, ?_⟩
  dsimp only
  rw [List.length_take, hcontrol]
  exact Nat.min_le_right _ _

theorem fetch_ok (hd : Delivered reader event) (hret : event.cqe.result ≥ 0) :
    ∃ message, fetch uring reader event = .ok message ∧
      message.controlData.length ≤ reader.msghdr.msgControllen := by
  obtain ⟨id, buffer, hid, hbuf, hlen, hroom⟩ := hd hret
  obtain ⟨message, hparse, hcontrol⟩ := parse_ok uring reader.msghdr hroom
  have hpos : event.cqe.result.toNat ≠ 0 := by
    rw [← hlen]
    simp only [sizeOfRecvmsgOut] at hroom
    omega
  refine ⟨message, ?_, hcontrol⟩
  simp only [fetch, hid, expect, ok_bind, if_neg hpos, hbuf, hparse]

theorem reply_ok (reader : Multishot) {message : RecvMsgOut}
    (h : message.controlData.length ≤ host.isizeMax) :
    ∃ reply, reader.reply host message = .ok reply := by
  obtain ⟨found, hfound, _⟩ := parseIpRecverr_spec h
  unfold Multishot.reply
  split
  · split
    · exact ⟨none, rfl⟩
    · rw [hfound]
      cases found with
      | none => exact ⟨none, rfl⟩
      | some extended => exact ⟨_, rfl⟩
  · exact ⟨_, rfl⟩

theorem reply_source {reader : Multishot} {message : RecvMsgOut} {reply : Reply}
    (h : reader.reply host message = .ok (some reply))
    (hs : reply.source = some addr) : ∃ socket, addr = .inet socket := by
  unfold Multishot.reply at h
  split at h
  · split at h
    · cases h
    · split at h
      · cases h
      · cases h
      · cases h
        exact parseSockaddr_isSocket hs
  · cases h
    exact parseSockaddr_isSocket hs

theorem record_ok {reply : Reply}
    (hs : ∀ addr, reply.source = some addr → ∃ socket, addr = .inet socket) :
    ∃ probes', record reader reply now probes = .ok probes' := by
  have hip : ∃ ip, reply.sourceIp = .ok ip := by
    unfold Reply.sourceIp
    split
    · exact ⟨none, rfl⟩
    · rename_i addr haddr
      obtain ⟨socket, rfl⟩ := hs addr haddr
      exact ⟨some socket.ip, rfl⟩
  obtain ⟨ip, hip⟩ := hip
  unfold record
  split
  · exact ⟨probes, rfl⟩
  · split
    · exact ⟨probes, rfl⟩
    · split
      · exact ⟨probes, rfl⟩
      · split
        · exact ⟨probes, rfl⟩
        · rw [hip]
          exact ⟨_, rfl⟩

theorem recverrControlLen_le (host : Host) : recverrControlLen host ≤ host.isizeMax := by
  rcases host with ⟨_ | _, word, h | h⟩ <;> subst h <;> decide

theorem msgControllen_le (hm : m ∈ readersOf host method) :
    m.msghdr.msgControllen ≤ host.isizeMax := by
  refine Nat.le_trans ?_ (recverrControlLen_le host)
  obtain ⟨⟨queue, index⟩, _, rfl⟩ := List.mem_map.mp hm
  simp only [Multishot.tryNew]
  split
  · exact Nat.le_refl _
  · exact Nat.zero_le _

theorem readProbes_ok (probes : List Probe) (hm : m ∈ readersOf host method)
    (hd : Delivered m event) :
    ∃ probes', readProbes uring probes event m = .ok probes' := by
  unfold readProbes
  split
  · rename_i hret
    obtain ⟨message, hfetch, hcontrol⟩ := fetch_ok uring hd hret
    obtain ⟨reply, hreply⟩ :=
      @reply_ok host m message (Nat.le_trans hcontrol (msgControllen_le hm))
    have hreceive : receive uring m event = .ok reply := by
      rw [receive, hfetch, ok_bind, hreply]
    rw [handleRead, hreceive, ok_bind]
    cases reply with
    | none => exact ⟨probes, rfl⟩
    | some reply => exact record_ok fun addr hs => reply_source hreply hs
  · exact ⟨probes, rfl⟩

end Reading

namespace RunArgs

variable {host : Host} {uring : RecvMsgOutApi host} {slab : SlabApi Outgoing} {args : RunArgs}

/-- No run panics, whatever the bytes the reads bring and the order of the completions. -/
theorem Ends.not_panic {returned : Returned slab} (h : args.Ends uring labels returned)
    (hd : ∀ entry event reader, (entry, event) ∈ completions labels →
      entry.reader? = some reader → Delivered reader event) (site : PanicSite) :
    returned.exit ≠ .panic site := by
  obtain ⟨before, label, w, rfl, hreach, hexit⟩ := h
  have hi := hreach.invariant
  cases hexit with
  | submit =>
    intro hc
    cases hc
  | @complete st event returned front entry back tag hreturn =>
    have hs := hi.sound_complete
    cases hs.completion_error tag hreturn with
    | done =>
      intro hc
      cases hc
    | full =>
      intro hc
      cases hc
    | @panic site' m he hread =>
      subst he
      have hm : m ∈ args.readers host := by
        cases hs.request m.entry List.mem_cons_self with
        | read hm => exact List.mem_of_getElem? hm
      have hlast : (m.entry, event) ∈ completions (before ++ [.complete m.entry event]) := by
        rw [completions_append]
        exact List.mem_append_right _ List.mem_cons_self
      obtain ⟨probes', hok⟩ := readProbes_ok uring st.probes hm (hd _ _ _ hlast rfl)
      rw [hread] at hok
      cases hok

/-- A run that reads 44 zero bytes and is ended by the timeout. -/
theorem not_panic_loopback :
    ∃ labels, ∃ returned : Returned (.vec Outgoing),
      (loopback 1 2 1).Ends (.layout .x86_64) labels returned ∧ (completions labels).length = 2 ∧
      ∀ site, returned.exit ≠ .panic site := by
  obtain ⟨st, m, m₁, rest, h⟩ :=
    (loopback 1 2 1).submitted (.layout .x86_64) (.vec Outgoing) (by decide)
  have hm : m = .tryNew .x86_64 ⟨false, echoReplies⟩ 0 := (List.cons.inj h.readers).1.symm
  let read : Event := ⟨⟨44, m.entry.userData, true, some 0⟩, fun _ n => some (.replicate n 0), 0⟩
  have hread : readProbes (.layout .x86_64) st.probes read m = .ok st.probes := by
    subst hm
    rfl
  obtain ⟨w, hphase, hreach, hflight⟩ := h.reaches.read h.mem_first rfl h.first rfl rfl
    (fun hall => absurd (hall 0 (by decide)) List.not_mem_nil) hread
  have hends := hreach.ends (exits_timeout _ _ (hflight ▸ h.mem_timeout) hphase)
  refine ⟨_, _, hends, rfl, hends.not_panic ?_⟩
  intro entry event reader hmem hreader
  rcases List.mem_cons.mp hmem with he | hmem
  · cases he
    cases hreader
    exact fun _ => ⟨0, .replicate 44 0, rfl, rfl, rfl, by rw [hm]; decide⟩
  · cases List.mem_singleton.mp hmem
    cases hreader

end RunArgs

end Ringroute
