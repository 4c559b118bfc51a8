import Ringroute.Library.Insertion
import Ringroute.Network

namespace Ringroute
open Library
set_option autoImplicit true

section Insertions

variable {host : Host} {uring : RecvMsgOutApi host}

theorem fromWrite_append (front back : List (Sqe × Event)) :
    fromWrite i (front ++ back) = match fromWrite i front with
      | some (write, later) => some (write, later ++ back)
      | none => fromWrite i back := by
  induction front with
  | nil => rfl
  | cons c front ih =>
    rw [List.cons_append, fromWrite, fromWrite]
    by_cases hp : c.1.probe? = some i
    · rw [if_pos hp, if_pos hp]
    · rw [if_neg hp, if_neg hp, ih]

theorem probe?_ne {c : Sqe × Event} (hp : c.1.probe? = none) (i : Nat) : c.1.probe? ≠ some i := by
  rw [hp]
  exact (Option.some_ne_none i).symm

theorem fromWrite_skip {c : Sqe × Event} (hp : c.1.probe? ≠ some i) (cs : List (Sqe × Event)) :
    fromWrite i (c :: cs) = fromWrite i cs := if_neg hp

theorem sentAtOf_insert {c : Sqe × Event} (hp : c.1.probe? ≠ some i)
    (front back : List (Sqe × Event)) :
    sentAtOf i (front ++ c :: back) = sentAtOf i (front ++ back) := by
  rw [sentAtOf, sentAtOf, fromWrite_append, fromWrite_append, fromWrite_skip hp]
  cases fromWrite i front <;> rfl

theorem resultOf_insert {c : Sqe × Event} {front : List (Sqe × Event)}
    (hp : c.1.probe? ≠ some i)
    (hquiet : answer? uring i c = none ∨ sentAtOf i front = none ∨ resultOf uring i front ≠ none)
    (back : List (Sqe × Event)) :
    resultOf uring i (front ++ c :: back) = resultOf uring i (front ++ back) := by
  rw [sentAtOf, resultOf] at hquiet
  rw [resultOf, resultOf, fromWrite_append, fromWrite_append, fromWrite_skip hp]
  cases hfrom : fromWrite i front with
  | none => rfl
  | some found =>
    obtain ⟨write, later⟩ := found
    rw [hfrom] at hquiet
    simp only [Option.bind_some] at hquiet ⊢
    cases hsent : write.sentAt with
    | none => rfl
    | some sentAt =>
      rw [hsent, Option.bind_some] at hquiet
      simp only [Option.bind_some, List.findSome?_append, List.findSome?_cons]
      rcases hquiet with hnone | hunsent | hanswered
      · rw [hnone]
      · cases hunsent
      · cases hfind : later.findSome? (answer? uring i) with
        | none =>
          rw [hfind] at hanswered
          exact absurd rfl hanswered
        | some answer => rfl

theorem fromWrite_written {cs : List (Sqe × Event)} (h : i ∈ written cs) :
    ∃ write later, fromWrite i cs = some (write, later) := by
  induction cs with
  | nil => exact absurd h List.not_mem_nil
  | cons c cs ih =>
    by_cases hp : c.1.probe? = some i
    · exact ⟨c.2, cs, if_pos hp⟩
    · rw [fromWrite_skip hp]
      obtain ⟨d, hd, hi⟩ := List.mem_filterMap.mp h
      rcases List.mem_cons.mp hd with rfl | hd
      · exact absurd hi hp
      · exact ih (List.mem_filterMap.mpr ⟨d, hd, hi⟩)

theorem answeredAfterWrite_append {front back : List (Sqe × Event)}
    (hfrom : fromWrite i front = some (write, later)) (hc : c ∈ back)
    (ha : answer? uring i c ≠ none) : AnsweredAfterWrite uring i (front ++ back) := by
  refine ⟨write, later ++ back, ?_, c, List.mem_append_right _ hc, ha⟩
  rw [fromWrite_append, hfrom]

theorem resultOf_snoc {front : List (Sqe × Event)} (ha : answer? uring i c ≠ none)
    (hsent : sentAtOf i front ≠ none) (hp : c.1.probe? = none) :
    resultOf uring i (front ++ [c]) ≠ none := by
  have hkeep : sentAtOf i (front ++ [c]) = sentAtOf i front := by
    rw [sentAtOf_insert (probe?_ne hp i) front [], List.append_nil]
  obtain ⟨⟨write, later⟩, hfrom, _⟩ :=
    Option.bind_eq_some_iff.mp (Option.ne_none_iff_exists'.mp hsent).choose_spec
  refine resultOf_ne_none_iff.mpr ⟨?_, answeredAfterWrite_append hfrom List.mem_cons_self ha⟩
  rwa [hkeep]

end Insertions

namespace RunArgs

/-- A completion that is noise where it comes: it completes no send, and the probe it answers, if it
answers one of the trace, is not sent or has its result. -/
def Noise (args : RunArgs) (uring : RecvMsgOutApi host) (front : List (Sqe × Event))
    (c : Sqe × Event) : Prop :=
  c.1.probe? = none ∧ ∀ i < args.probeCount, answer? uring i c ≠ none →
    sentAtOf i front = none ∨ resultOf uring i front ≠ none

variable {host : Host} {uring : RecvMsgOutApi host} {slab : SlabApi Outgoing} {args : RunArgs}

theorem Noise.of_unanswered (hp : c.1.probe? = none)
    (h : ∀ i < args.probeCount, answer? uring i c = none) : args.Noise uring front c :=
  ⟨hp, fun i hi ha => absurd (h i hi) ha⟩

theorem Noise.sentAtOf (h : args.Noise uring front c) (i : Nat) (back : List (Sqe × Event)) :
    sentAtOf i (front ++ c :: back) = Ringroute.sentAtOf i (front ++ back) :=
  sentAtOf_insert (probe?_ne h.1 i) front back

theorem Noise.resultOf (h : args.Noise uring front c) (hi : i < args.probeCount)
    (back : List (Sqe × Event)) :
    resultOf uring i (front ++ c :: back) = Ringroute.resultOf uring i (front ++ back) := by
  refine resultOf_insert (probe?_ne h.1 i) ?_ back
  by_cases ha : answer? uring i c = none
  · exact .inl ha
  · exact .inr (h.2 i hi ha)

theorem Leaves.probes_congr (h : args.Leaves uring slab labels probes)
    (h' : args.Leaves uring slab labels' probes')
    (hsent : ∀ i < args.probeCount,
      sentAtOf i (completions labels') = sentAtOf i (completions labels))
    (hresult : ∀ i < args.probeCount,
      resultOf uring i (completions labels') = resultOf uring i (completions labels)) :
    probes' = probes := by
  obtain ⟨w, hw, rfl⟩ := h.processes
  obtain ⟨w', hw', rfl⟩ := h'.processes
  apply List.ext_getElem?
  intro i
  rw [hw.specified, hw'.specified]
  by_cases hi : i < args.probeCount
  · apply Option.map_congr
    intro probe _
    rw [Probe.specified, Probe.specified, hsent i hi, hresult i hi]
  · rw [List.getElem?_eq_none (by rw [length_initialProbes]; exact Nat.le_of_not_lt hi)]
    rfl

theorem Leaves.interspersed (h : args.Leaves uring slab labels probes)
    (h' : args.Leaves uring slab labels' probes')
    (hdiffer : Interspersed (args.Noise uring) (completions labels) (completions labels')) :
    probes' = probes := by
  refine h.probes_congr h' ?_ ?_
  · intro i _
    exact hdiffer.congr fun front c back hc => hc.sentAtOf i back
  · intro i hi
    exact hdiffer.congr fun front c back hc => hc.resultOf hi back

theorem Noise.of_repeated {before after : List (Sqe × Event)} {c c₀ : Sqe × Event}
    (hseen : seen c = seen c₀) (hp : c₀.1.probe? = none)
    (hwritten : ∀ i < args.probeCount, answer? uring i c₀ ≠ none → i ∈ written before) :
    args.Noise uring (before ++ c₀ :: after) c := by
  have hentry : c.1 = c₀.1 := congrArg (fun s => s.1) hseen
  refine ⟨hentry ▸ hp, ?_⟩
  intro i hi ha
  have ha₀ := (answer?_seen hseen).mp ha
  obtain ⟨write, later, hfrom⟩ := fromWrite_written (hwritten i hi ha₀)
  have hafter := answeredAfterWrite_append hfrom (List.mem_cons_self (l := after)) ha₀
  by_cases hsent : Ringroute.sentAtOf i (before ++ c₀ :: after) = none
  · exact .inl hsent
  · exact .inr (resultOf_ne_none_iff.mpr ⟨hsent, hafter⟩)

theorem loopback_repeated :
    ∃ k o, o.probe.index = 0 ∧ ∃ w : World (.vec Outgoing),
      (loopback 1 2 1).Reaches (.layout .x86_64)
        [.submit .ok, .complete (writeEntry k o) (sent k o 7),
          .complete echoReader.entry (echo 9)] w ∧
      ∃ w' : World (.vec Outgoing), (loopback 1 2 1).Reaches (.layout .x86_64)
        [.submit .ok, .complete (writeEntry k o) (sent k o 7),
          .complete echoReader.entry (echo 9), .complete echoReader.entry (echo 12)] w' := by
  obtain ⟨st, m₀, m₁, rest, h⟩ :=
    (loopback 1 2 1).submitted (.layout .x86_64) (.vec Outgoing) (by decide)
  obtain ⟨k, o, hmem, ho⟩ := h.writes 0 (by decide)
  have hecho (t : Instant) : Scripted ((loopback 1 2 1).readers .x86_64) rest
      (echoReader.entry, echo t) := scripted_echo List.mem_cons_self t
  have hpending : ∃ i < (loopback 1 2 1).probeCount, i ∉ [o.probe.index] := by
    rw [ho]
    exact ⟨1, by decide, by decide⟩
  obtain ⟨w, _, hreach, _⟩ := h.script (List.forall_mem_cons.mpr
    ⟨.send 7 hmem, List.forall_mem_singleton.mpr (hecho 9)⟩) (List.nodup_singleton _) hpending
  obtain ⟨w', _, hreach', _⟩ := h.script (List.forall_mem_cons.mpr
    ⟨.send 7 hmem, List.forall_mem_cons.mpr
      ⟨hecho 9, List.forall_mem_singleton.mpr (hecho 12)⟩⟩) (List.nodup_singleton _) hpending
  exact ⟨k, o, ho, w, hreach, w', hreach'⟩

/-- Noise is harmless. Two runs whose completions differ by noise only, in whatever places, leave
the same probes; a completion that is not a send's changes the probes unless it is noise; and a
message that the network brings again is noise, if its first copy came behind the write. -/
theorem Leaves.noise_harmless (h : args.Leaves uring slab labels probes) :
    (∀ labels' probes', args.Leaves uring slab labels' probes' →
      Interspersed (args.Noise uring) (completions labels) (completions labels') →
      probes' = probes) ∧
    (∀ entry event probes', entry.probe? = none →
      args.Leaves uring slab (labels ++ [.complete entry event]) probes' →
      (probes' = probes ↔ args.Noise uring (completions labels) (entry, event))) ∧
    ∀ before after c c₀, completions labels = before ++ c₀ :: after → seen c = seen c₀ →
      c₀.1.probe? = none →
      (∀ i < args.probeCount, answer? uring i c₀ ≠ none → i ∈ written before) →
      args.Noise uring (completions labels) c := by
  refine ⟨fun _ _ h' hdiffer => h.interspersed h' hdiffer, ?_, ?_⟩
  · intro entry event probes' hp h'
    constructor
    · rintro rfl
      refine ⟨hp, ?_⟩
      intro i hi ha
      by_contra hopen
      obtain ⟨hsent, hnone⟩ := not_or.mp hopen
      obtain ⟨w, hw, rfl⟩ := h.processes
      obtain ⟨w', hw', hprobes⟩ := h'.processes
      obtain ⟨probe, hget, _, hresult⟩ := hw.specified_of_lt hi
      obtain ⟨probe', hget', _, hresult'⟩ := hw'.specified_of_lt hi
      rw [hprobes, hget] at hget'
      cases hget'
      rw [not_not.mp hnone] at hresult
      have hcompletions := completions_append labels [.complete entry event]
      rw [hresult, hcompletions] at hresult'
      exact resultOf_snoc ha hsent hp hresult'.symm
    · intro hnoise
      refine h.interspersed h' ?_
      rw [completions_append]
      exact .snoc hnoise
  · intro before after c c₀ hcs hseen hp hwritten
    rw [hcs]
    exact .of_repeated hseen hp hwritten

/-- The echo reply to the first probe, once more. -/
theorem noise_harmless_loopback :
    ∃ labels probes, (loopback 1 2 1).Leaves (.layout .x86_64) (.vec Outgoing) labels probes ∧
      (loopback 1 2 1).Leaves (.layout .x86_64) (.vec Outgoing)
        (labels ++ [.complete echoReader.entry (echo 12)]) probes ∧ Recorded probes 0 := by
  obtain ⟨k, o, ho, w, hreach, w', hreach'⟩ := loopback_repeated
  have hnoise := hreach.leaves.noise_harmless.2.2
    [(writeEntry k o, sent k o 7)] [] (echoReader.entry, echo 12) (echoReader.entry, echo 9)
    rfl rfl rfl (by
      intro i hi ha
      match i, hi with
      | 0, _ => exact List.mem_filterMap.mpr ⟨_, List.mem_cons_self, congrArg some ho⟩
      | 1, _ => exact absurd rfl ha)
  have hsame := (hreach.leaves.noise_harmless.2.1 _ _ _ rfl hreach'.leaves).mpr hnoise
  refine ⟨_, _, hreach.leaves, hsame ▸ hreach'.leaves, ?_⟩
  obtain ⟨probe, hp, _, hresult⟩ := hreach.processes.specified_of_lt (i := 0) (by decide)
  exact ⟨probe, hp, by rw [hresult.trans (resultOf_loopback ho [])]; exact Option.some_ne_none _⟩

end RunArgs

section Foreign

variable {host : Host} {uring : RecvMsgOutApi host} {args : RunArgs} {tcp : Tcp} {pnet : Pnet}
  {id : ProbeId}

/-- A message about the segments of somebody else, which a raw socket gets like any other: an error
that quotes one from another port than the trace's, or a segment to another port. -/
inductive Foreign (args : RunArgs) (host : Host) (cut : Ipv4Cut) (tcp : Tcp) :
    Sqe × Event → Prop where
  | error {reader : Multishot} (hreader : (args.readers host)[1]? = some reader)
      (message : Delivery reader.msghdr) (hdelivers : event.Delivers (message.bytes host))
      (hport : Bytes.beValue (message.payload.field 0 2) ≠ tcp.source.port.toNat) :
      Foreign args host cut tcp (reader.entry, event)
  | segment {reader : Multishot} (hreader : (args.readers host)[0]? = some reader)
      (message : Delivery reader.msghdr) (hdelivers : event.Delivers (message.bytes host))
      (hport : Bytes.beValue ((Tcp.carriedSegment cut tcp.target message.payload).field 2 2) ≠
        tcp.source.port.toNat) :
      Foreign args host cut tcp (reader.entry, event)

theorem Multishot.reply_quoted {reader : Multishot} {reply : Reply}
    (h : reader.reply host message = .ok (some reply)) : reply.quoted = message.payloadData := by
  unfold Multishot.reply at h
  split at h
  · split at h
    · cases h
    · split at h
      · cases h
      · cases h
      · cases h
        rfl
  · cases h
    rfl

theorem Delivery.quoted {reader : Multishot} {event : Event} {reply : Reply}
    (message : Delivery reader.msghdr)
    (hdelivers : event.Delivers (message.bytes host))
    (h : Ringroute.receive uring reader event = .ok (some reply)) :
    reply.quoted = message.payload := by
  rw [Ringroute.receive, message.fetch uring hdelivers, ok_bind] at h
  exact Multishot.reply_quoted h

theorem Foreign.unanswered (hmethod : args.method = tcp.method pnet clock)
    (h : Foreign args host pnet.cut tcp c) (i : Nat) : answer? uring i c = none := by
  apply Option.eq_none_iff_forall_ne_some.mpr
  rintro ⟨reader, reply, now⟩ ha
  obtain ⟨hentry, hreceive⟩ := answer?_cases ha
  obtain ⟨id, hid, _⟩ := Option.map_eq_some_iff.mp (answer?_identify ha)
  cases h with
  | error hreader message hdelivers hport =>
    cases hentry
    have hquoted := message.quoted hdelivers hreceive
    obtain ⟨queue, hqueue, rfl⟩ := readersOf_get hreader
    rw [hmethod] at hqueue
    cases hqueue
    obtain ⟨_, hsource, _⟩ := Tcp.identifyFromError_eq_some_iff.mp hid
    rw [hquoted] at hsource
    exact hport hsource
  | segment hreader message hdelivers hport =>
    cases hentry
    have hquoted := message.quoted hdelivers hreceive
    obtain ⟨queue, hqueue, rfl⟩ := readersOf_get hreader
    rw [hmethod] at hqueue
    cases hqueue
    obtain ⟨_, _, _, hdestination, _⟩ := Tcp.identify_eq_some_iff.mp hid
    rw [hquoted] at hdestination
    exact hport hdestination

theorem Foreign.noise (hmethod : args.method = tcp.method pnet clock)
    (h : Foreign args host pnet.cut tcp c) (front : List (Sqe × Event)) :
    args.Noise uring front c := by
  refine .of_unanswered ?_ fun i _ => h.unanswered hmethod i
  cases h <;> rfl

theorem Tcp.quote_port {other : Tcp} (h : Quotes host (other.probe pnet timestamp id).1
      (other.probe pnet timestamp id).2 .tcp name payload) :
    Bytes.beValue (payload.field 0 2) = other.source.port.toNat := by
  cases h with
  | tcp =>
    rw [Bytes.field_append_left (by rw [length_probe_take]; omega), Bytes.field_take (by omega),
      probe_source, Bytes.beValue_beBytes 2 _ other.source.port.toNat_lt]

theorem Tcp.carriedSegment_family {cut : Ipv4Cut} {target target' : IpAddr}
    (h : target.isIpv4 = target'.isIpv4) (quoted : Bytes) :
    carriedSegment cut target quoted = carriedSegment cut target' quoted := by
  cases target <;> cases target' <;> first | rfl | cases h

theorem Tcp.answer_port {cut : Ipv4Cut} {other : Tcp} (h : Answers (other.probe pnet timestamp id).1
      (other.probe pnet timestamp id).2 .tcp who payload) :
    Bytes.beValue ((carriedSegment cut other.target payload).field 2 2) =
      other.source.port.toNat := by
  cases h with
  | @tcp _ _ header segment hdestination hip hheader hsegment =>
    cases hdestination
    rw [SocketAddr.new_ip] at hheader
    obtain ⟨n, hn, hcarried⟩ := carriedSegment_raw hheader segment
    simp only [tcpMinHeaderLen] at hn
    rw [hcarried, Bytes.field_take (by omega), hsegment.destination, probe_source,
      Bytes.beValue_beBytes 2 _ other.source.port.toNat_lt]

end Foreign

namespace RunArgs

variable {host : Host} {uring : RecvMsgOutApi host} {slab : SlabApi Outgoing} {args : RunArgs}

/-- TCP traces do not disturb each other. Whatever the raw socket of a trace gets of segments from
or to other ports, in whatever places, the trace leaves the same probes; and what comes back for
the probes of a trace from another port is of this kind, to the same target or not. -/
theorem tcp_isolated {tcp : Tcp} (hmethod : args.method = tcp.method pnet clock) :
    (∀ labels probes labels' probes', args.Leaves uring slab labels probes →
      args.Leaves uring slab labels' probes' →
      Interspersed (fun _ => Foreign args host pnet.cut tcp) (completions labels)
        (completions labels') →
      probes' = probes) ∧
    ∀ (other : Tcp) (timestamp : UInt32) (id : ProbeId) (reader : Multishot) (event : Event)
      (message : Delivery reader.msghdr), other.source.port ≠ tcp.source.port →
      event.Delivers (message.bytes host) →
      ((args.readers host)[1]? = some reader →
        Quotes host (other.probe pnet timestamp id).1 (other.probe pnet timestamp id).2 .tcp
          message.name message.payload →
        Foreign args host pnet.cut tcp (reader.entry, event)) ∧
      ((args.readers host)[0]? = some reader → other.target.isIpv4 = tcp.target.isIpv4 →
        (∃ who, Answers (other.probe pnet timestamp id).1 (other.probe pnet timestamp id).2 .tcp
          who message.payload) →
        Foreign args host pnet.cut tcp (reader.entry, event)) := by
  constructor
  · intro labels probes labels' probes' h h' hdiffer
    exact h.interspersed h' (hdiffer.mono fun front c hc => hc.noise hmethod front)
  · intro other timestamp id reader event message hports hdelivers
    have hne : other.source.port.toNat ≠ tcp.source.port.toNat := fun hc =>
      hports (UInt16.toNat_inj.mp hc)
    constructor
    · intro hreader hquotes
      refine .error hreader message hdelivers ?_
      rwa [Tcp.quote_port hquotes]
    · rintro hreader hfamily ⟨who, hanswers⟩
      refine .segment hreader message hdelivers ?_
      rwa [← Tcp.carriedSegment_family hfamily, Tcp.answer_port hanswers]

/-- A segment that acknowledges the first probe of a trace from port 40001, behind its IPv4
header. -/
def overheard : Delivery recvReader.msghdr :=
  { acknowledged 1 with
    payload := [69, 0, 0, 40] ++ .replicate 16 0 ++
      [0, 80, 156, 65, 0, 0, 0, 0, 0, 0, 0, 1, 80, 20, 0, 0, 0, 0, 0, 0]
    payloadlen := Nat.le_of_eq rfl }

def overheardEvent : Event where
  cqe :=
    { result := 84, userData := recvReader.entry.userData, more := true, bufferId := some 0 }
  getBuf _ _ := some (overheard.bytes .x86_64)
  now := 9

theorem overheard_answers : Answers ((loopbackTcpFrom 40001).probe Pnet.layout 0 ⟨0⟩).1
    ((loopbackTcpFrom 40001).probe Pnet.layout 0 ⟨0⟩).2 .tcp (some (.v4 ⟨.localhost, 0⟩))
    overheard.payload := by
  have hheader : RawHeader loopbackAddr ([69, 0, 0, 40] ++ .replicate 16 0) :=
    .v4 (by decide) (by decide) (by decide)
  refine .tcp rfl rfl hheader ⟨by decide, ?_, ?_, ?_⟩
  · rw [Tcp.probe_destination]
    rfl
  · rw [Tcp.probe_source]
    rfl
  · rw [Tcp.probe_sequence]
    rfl

/-- A trace from port 40000 gets the answer to a trace from port 40001. -/
theorem tcp_isolated_loopback :
    ∃ labels probes, loopbackTcp.Leaves (.layout .x86_64) (.vec Outgoing) labels probes ∧
      loopbackTcp.Leaves (.layout .x86_64) (.vec Outgoing)
        (labels ++ [.complete recvReader.entry overheardEvent]) probes := by
  obtain ⟨st, m, m₁, rest, h⟩ :=
    loopbackTcp.submitted (.layout .x86_64) (.vec Outgoing) (by decide)
  have hm : m = recvReader := (List.cons.inj h.readers).1.symm
  subst hm
  have hmethod : loopbackTcp.method = (loopbackTcpFrom 40000).method Pnet.layout fun _ => 0 := rfl
  have hpending : ¬ loopbackTcp.AllSent [.submit .ok] := by
    intro hall
    exact absurd (hall 0 (by decide)) List.not_mem_nil
  have hdelivers : overheardEvent.Delivers (overheard.bytes .x86_64) := ⟨rfl, 0, rfl, rfl⟩
  have hdelivered : Delivered recvReader overheardEvent := fun _ =>
    ⟨0, overheard.bytes .x86_64, rfl, rfl, rfl, by decide⟩
  obtain ⟨probes, hok⟩ := readProbes_ok (.layout .x86_64) (World.submitted st).run.probes
    (List.mem_of_getElem? h.first) hdelivered
  obtain ⟨w, _, hreach, _⟩ := h.reaches.read h.mem_first rfl h.first rfl rfl hpending hok
  obtain ⟨hisolated, hforeign⟩ :=
    @tcp_isolated .x86_64 (.layout .x86_64) (.vec Outgoing) _ _ _ _ hmethod
  have hforeign := (hforeign (loopbackTcpFrom 40001) 0 ⟨0⟩ recvReader overheardEvent overheard
    (by decide) hdelivers).2 rfl rfl ⟨_, overheard_answers⟩
  have hsame := hisolated _ _ _ _ h.reaches.leaves hreach.leaves (.snoc hforeign)
  exact ⟨_, _, h.reaches.leaves, hsame ▸ hreach.leaves⟩

end RunArgs

end Ringroute
