import Ringroute.Attribution
import Ringroute.Credit

namespace Ringroute
open Library
set_option autoImplicit true

/-- What comes back for a probe: an error that a node on its way reports, or an answer to it. -/
inductive Response where
  | error (source : Option SocketAddr) (error : IcmpError)
  | answer (source : Option SocketAddr)
  deriving DecidableEq, Repr

namespace Response

def source : Response → Option IpAddr
  | .error who _ => who.map SocketAddr.ip
  | .answer who => who.map SocketAddr.ip

def kind : Response → ReplyKind
  | .error _ reported => reported.kind
  | .answer _ => .destination

end Response

/-- What the network may send back for a probe with a hop limit. Probes of one hop may take
different ways. -/
abbrev Network := UInt8 → Response → Prop

/-- A completion brings a response to probe `i`, laid out as the kernel does: an error on the error
queue, with what it quotes of the probe, or an answer on the receive queue. -/
inductive Brings (args : RunArgs) (arg : MethodArg) (host : Host) (i : Nat) :
    Response → Sqe × Event → Prop where
  | error {reader : Multishot} (hreader : (args.readers host)[1]? = some reader)
      (message : Delivery reader.msghdr) (messages : List (Cmsg host)) (queued : QueuedError)
      (hdelivers : event.Delivers (message.bytes host))
      (hother : ∀ m ∈ messages, m.header.isRecverr = false)
      (hcontrol : message.control = messages.flatMap Cmsg.bytes ++ (queued.bytes host ++ after))
      (hwho : Names host queued.address who)
      (hquotes : Quotes host (args.method.probe ⟨UInt16.ofNat i⟩).1
        (args.method.probe ⟨UInt16.ofNat i⟩).2 arg message.name message.payload) :
      Brings args arg host i (.error who queued.error) (reader.entry, event)
  | answer {reader : Multishot} (hreader : (args.readers host)[0]? = some reader)
      (message : Delivery reader.msghdr) (hdelivers : event.Delivers (message.bytes host))
      (hwho : Names host message.name who)
      (hanswers : Answers (args.method.probe ⟨UInt16.ofNat i⟩).1
        (args.method.probe ⟨UInt16.ofNat i⟩).2 arg who message.payload) :
      Brings args arg host i (.answer who) (reader.entry, event)

section Brings

variable {host : Host} (uring : RecvMsgOutApi host) {reader : Multishot} {event : Event}
  {args : RunArgs}

theorem Event.Delivers.result_nonneg (h : event.Delivers buffer) : event.cqe.result ≥ 0 := by
  rw [h.1]
  exact Int.natCast_nonneg _

theorem Delivery.receive (message : Delivery reader.msghdr)
    (hdelivers : event.Delivers (message.bytes host))
    (hreply : reader.reply host ⟨message.name, message.control, message.payload, false⟩ =
      .ok (some reply)) : Ringroute.receive uring reader event = .ok (some reply) := by
  rw [Ringroute.receive, message.fetch uring hdelivers, ok_bind, hreply]

variable {uring}

theorem answer?_read {id : ProbeId} (hresult : event.cqe.result ≥ 0)
    (hreceive : receive uring reader event = .ok (some reply))
    (hid : reader.queue.replies.identify reply = some id) (hindex : id.index = i) :
    answer? uring i (reader.entry, event) = some (reader, reply, event.now) := by
  simp only [answer?, Multishot.entry_reader?, if_pos hresult, hreceive, hid, Option.map_some,
    hindex, if_true]

theorem answer?_cases {c : Sqe × Event} (h : answer? uring i c = some (reader, reply, now)) :
    c.1.reader? = some reader ∧ receive uring reader c.2 = .ok (some reply) := by
  obtain ⟨entry, event⟩ := c
  simp only [answer?] at h
  split at h
  · cases h
  · rename_i hreader
    split at h
    · split at h
      · rename_i hreceive
        split at h
        · cases h
          exact ⟨hreader, hreceive⟩
        · cases h
      · cases h
    · cases h

theorem answer?_unique {c : Sqe × Event} (h : answer? uring i c = some (reader, reply, now))
    (h' : answer? uring j c = some (reader', reply', now')) :
    i = j ∧ reader = reader' ∧ reply = reply' := by
  obtain ⟨hreader, hreceive⟩ := answer?_cases h
  obtain ⟨hreader', hreceive'⟩ := answer?_cases h'
  obtain rfl := Option.some.inj (hreader.symm.trans hreader')
  obtain rfl := Option.some.inj (Except.ok.inj (hreceive.symm.trans hreceive'))
  have hid := (answer?_identify h).symm.trans (answer?_identify h')
  exact ⟨Option.some.inj hid, rfl, rfl⟩

theorem Brings.answer? (hadmitted : args.Admitted)
    (hbuild : arg.build pnet system target packetLen = .ok args.method) (hi : i < args.probeCount)
    (h : Brings args arg host i response (entry, event)) :
    ∃ reader reply, Ringroute.answer? uring i (entry, event) = some (reader, reply, event.now) ∧
      reply.ip? = response.source ∧ reader.queue.replies.classify reply = response.kind := by
  have hcount := hadmitted.probeCount_le
  have hnat : (UInt16.ofNat i).toNat = i := UInt16.toNat_ofNat_of_lt' (by change i < 2 ^ 16; omega)
  have hid : (UInt16.ofNat i).toNat ≤ 32101 := by omega
  have hat : (ProbeId.mk (UInt16.ofNat i)).index = i := hnat
  cases h with
  | @error _ who _ reader hreader message messages queued hdelivers hother hcontrol hwho
      hquotes =>
    have hmax := msgControllen_le (List.mem_of_getElem? hreader)
    have hlen : message.control.length ≤ host.isizeMax := by
      have hfield := message.length_control
      rw [List.length_append] at hfield
      omega
    obtain ⟨queue, hqueue, rfl⟩ := readersOf_get hreader
    obtain ⟨herr, hidentify, hclassify⟩ := Quotes.identify ⟨who.map SockAddr.inet,
      parseSockaddr host message.name, message.payload, some queued.error⟩ hbuild hqueue hid hquotes
      rfl rfl
    have hreply := reply_queued (.tryNew host queue 1) message.name message.payload messages queued
      herr hother (hcontrol ▸ hlen) hwho
    rw [← hcontrol] at hreply
    have hanswer := answer?_read hdelivers.result_nonneg
      (message.receive uring hdelivers hreply) hidentify hat
    refine ⟨_, _, hanswer, ?_, hclassify⟩
    cases who <;> rfl
  | @answer who _ reader hreader message hdelivers hwho hanswers =>
    obtain ⟨queue, hqueue, rfl⟩ := readersOf_get hreader
    obtain ⟨herr, hidentify, hclassify⟩ := Answers.identify
      ⟨who.map SockAddr.inet, none, message.payload, none⟩ hbuild hqueue hid hanswers rfl
    have hreply := reply_received (.tryNew host queue 0) message.control message.payload herr hwho
    have hanswer := answer?_read hdelivers.result_nonneg
      (message.receive uring hdelivers hreply) hidentify hat
    refine ⟨_, _, hanswer, ?_, hclassify⟩
    cases who <;> rfl

theorem Brings.answer?_ne_none (hadmitted : args.Admitted)
    (hbuild : arg.build pnet system target packetLen = .ok args.method) (hi : i < args.probeCount)
    (h : Brings args arg host i response (entry, event)) :
    Ringroute.answer? uring i (entry, event) ≠ none := by
  obtain ⟨reader, reply, ha, _⟩ : ∃ reader reply,
      Ringroute.answer? uring i (entry, event) = some (reader, reply, event.now) ∧
      reply.ip? = response.source ∧ reader.queue.replies.classify reply = response.kind :=
    h.answer? hadmitted hbuild hi
  rw [ha]
  exact Option.some_ne_none _

theorem fromWrite_split {cs : List (Sqe × Event)} (h : fromWrite i cs = some (write, later)) :
    ∃ front entry, cs = front ++ (entry, write) :: later ∧ entry.probe? = some i := by
  induction cs with
  | nil => cases h
  | cons c cs ih =>
    obtain ⟨entry, event⟩ := c
    rw [fromWrite] at h
    split at h
    · rename_i hp
      cases h
      exact ⟨[], entry, rfl, hp⟩
    · obtain ⟨front, entry', rfl, hp⟩ := ih h
      exact ⟨(entry, event) :: front, entry', rfl, hp⟩

theorem resultOf_cases {cs : List (Sqe × Event)} (h : resultOf uring i cs = some result) :
    ∃ sentAt c answer, sentAtOf i cs = some sentAt ∧ c ∈ cs ∧
      answer? uring i c = some answer ∧ result = resultBy sentAt answer := by
  obtain ⟨⟨write, later⟩, hfrom, hbind⟩ := Option.bind_eq_some_iff.mp h
  obtain ⟨sentAt, hsent, hmap⟩ := Option.bind_eq_some_iff.mp hbind
  obtain ⟨answer, hfind, rfl⟩ := Option.map_eq_some_iff.mp hmap
  obtain ⟨c, hc, ha⟩ := List.exists_of_findSome?_eq_some hfind
  obtain ⟨front, entry, rfl, _⟩ := fromWrite_split hfrom
  refine ⟨sentAt, c, answer, ?_, ?_, ha, rfl⟩
  · rw [sentAtOf, hfrom]
    exact hsent
  · exact List.mem_append_right _ (List.mem_cons_of_mem _ hc)

end Brings

namespace RunArgs

/-- The hop limit of probe `i`. -/
def ttl? (args : RunArgs) (i : Nat) : Option UInt8 := (args.initialProbes.map Probe.ttl)[i]?

/-- The completions are those of a trace over the network. A message that a reader gets is what
comes back for one of the probes, in whatever order and as often as the network likes, or it is not
taken for the answer to any. -/
def Over (args : RunArgs) (arg : MethodArg) (uring : RecvMsgOutApi host) (network : Network)
    (cs : List (Sqe × Event)) : Prop :=
  ∀ c ∈ cs, (∀ i < args.probeCount, answer? uring i c = none) ∨
    ∃ i t response, args.ttl? i = some t ∧ network t response ∧ Brings args arg host i response c

variable {host : Host} {uring : RecvMsgOutApi host} {slab : SlabApi Outgoing} {args : RunArgs}

theorem ttl?_lt (h : args.ttl? i = some t) : i < args.probeCount := by
  rw [← args.length_initialProbes, ← List.length_map Probe.ttl]
  exact (List.getElem?_eq_some_iff.mp h).choose

theorem Processes.ttl? {w : World slab} (h : args.Processes uring labels w)
    (hp : w.run.probes[i]? = some probe) : args.ttl? i = some probe.ttl := by
  have hlaid : args.initialProbes.map Probe.ttl = w.run.probes.map Probe.ttl :=
    initialProbes_laid.trans h.laid.symm
  rw [RunArgs.ttl?, hlaid, List.getElem?_map, hp]
  rfl

theorem Over.resultOf {cs : List (Sqe × Event)} (hover : args.Over arg uring network cs)
    (hadmitted : args.Admitted)
    (hbuild : arg.build pnet system target packetLen = .ok args.method)
    (ht : args.ttl? i = some t) (h : Ringroute.resultOf uring i cs = some result) :
    ∃ sentAt response event, sentAtOf i cs = some sentAt ∧ network t response ∧
      (∃ entry, (entry, event) ∈ cs ∧ Brings args arg host i response (entry, event)) ∧
      result = ⟨response.source, event.now - sentAt, response.kind⟩ := by
  obtain ⟨sentAt, ⟨entry, event⟩, answer, hsent, hc, ha, rfl⟩ := resultOf_cases h
  rcases hover _ hc with hnone | ⟨j, t', response, ht', hnetwork, hbrings⟩
  · have hno := hnone i (ttl?_lt ht)
    rw [ha] at hno
    cases hno
  · obtain ⟨reader, reply, hj, hip, hkind⟩ := hbrings.answer? hadmitted hbuild (ttl?_lt ht')
    obtain ⟨rfl, _⟩ := answer?_unique hj ha
    obtain rfl := Option.some.inj (ht.symm.trans ht')
    obtain rfl := Option.some.inj (hj.symm.trans ha)
    refine ⟨sentAt, response, event, hsent, hnetwork, ⟨entry, hc, hbrings⟩, ?_⟩
    rw [resultBy, hip, hkind]

theorem Processes.brought {w : World slab} (h : args.Processes uring labels w)
    (hadmitted : args.Admitted)
    (hbuild : arg.build pnet system target packetLen = .ok args.method)
    (hover : args.Over arg uring network (completions labels))
    (hp : w.run.probes[i]? = some probe) (hr : probe.result = some result) :
    ∃ sentAt response event, probe.sentAt = some sentAt ∧ network probe.ttl response ∧
      (∃ entry, (entry, event) ∈ completions labels ∧
        Brings args arg host i response (entry, event)) ∧
      result = ⟨response.source, event.now - sentAt, response.kind⟩ := by
  have ht := h.ttl? hp
  obtain ⟨probe', hp', hsent, hspecified⟩ := h.specified_of_lt (ttl?_lt ht)
  rw [hp] at hp'
  cases hp'
  rw [hsent]
  exact hover.resultOf hadmitted hbuild ht (hspecified.symm.trans hr)

/-- The echo reply, field by field. -/
def echoed : Delivery echoReader.msghdr where
  name := [2, 0, 0, 0, 127, 0, 0, 1, 0, 0, 0, 0, 0, 0, 0, 0]
  nameRest := .replicate 12 0
  control := []
  controlRest := []
  payload := .replicate 8 0
  header := ⟨16, 0, 8, 0⟩
  length_name := by decide
  length_control := by decide
  namelen := by decide
  controllen := by decide
  payloadlen := by decide
  whole := by decide

theorem brings_echo {first last : UInt8} {count : UInt16} (t : Instant) :
    Brings (loopback first last count) .icmp .x86_64 0 (.answer (some (.v4 ⟨.localhost, 0⟩)))
      (echoReader.entry, echo t) := by
  refine .answer rfl echoed ⟨rfl, 0, rfl, rfl⟩ (EncodesSockaddr.of_parse rfl) ?_
  exact @Answers.icmp _ _ _ (List.replicate 6 0) [] rfl

theorem loopback_build :
    MethodArg.icmp.build Pnet.layout loopbackSystem loopbackAddr 60 =
      .ok (loopback 1 2 1).method := rfl

theorem Echoes.over {first last : UInt8} {count : UInt16} {network : Network}
    {cs : List (Sqe × Event)} (h : Echoes cs)
    (hfirst : (loopback first last count).ttl? 0 = some t)
    (hnetwork : network t (.answer (some (.v4 ⟨.localhost, 0⟩)))) :
    (loopback first last count).Over .icmp (.layout .x86_64) network cs := by
  intro c hc
  rcases h c hc with ⟨k, o, t, rfl⟩ | ⟨t, rfl⟩
  · exact .inl fun _ _ => rfl
  · exact .inr ⟨0, _, _, hfirst, hnetwork, brings_echo t⟩

end RunArgs

end Ringroute
