import Ringroute.Answers
import Ringroute.PerProbe

namespace Ringroute
open Library
set_option autoImplicit true

/-- A message as the kernel lays it out in the buffer of a read: the name and the control data stand
at the front of the fields that the read reserved for them, and the payload takes what room there
is. The control data is all there. -/
structure Delivery (msghdr : Msghdr) where
  name : Bytes
  nameRest : Bytes
  control : Bytes
  controlRest : Bytes
  payload : Bytes
  header : RecvMsgHeader
  length_name : (name ++ nameRest).length = msghdr.msgNamelen
  length_control : (control ++ controlRest).length = msghdr.msgControllen
  namelen : header.namelen.toNat = name.length
  controllen : header.controllen.toNat = control.length
  payloadlen : payload.length ≤ header.payloadlen.toNat
  whole : header.flags &&& msgCtrunc = 0

def Delivery.bytes (host : Host) (message : Delivery msghdr) : Bytes :=
  message.header.bytes host ++ (message.name ++ message.nameRest) ++
    (message.control ++ message.controlRest) ++ message.payload

/-- A completion comes with a buffer. -/
def Event.Delivers (event : Event) (buffer : Bytes) : Prop :=
  event.cqe.result = buffer.length ∧
    ∃ id, event.cqe.bufferId = some id ∧ event.getBuf id buffer.length = some buffer

/-- The completion that hands a message over to its reader. -/
def Delivery.event (host : Host) {reader : Multishot} (message : Delivery reader.msghdr)
    (now : Instant) : Event where
  cqe :=
    { result := (message.bytes host).length
      userData := reader.entry.userData
      more := true
      bufferId := some 0 }
  getBuf _ _ := some (message.bytes host)
  now := now

section Pipeline

variable {host : Host} (uring : RecvMsgOutApi host) {reader : Multishot} {event : Event}

theorem Delivery.parse (message : Delivery reader.msghdr) :
    uring.parse (message.bytes host) reader.msghdr = some
      { nameData := message.name
        controlData := message.control
        payloadData := message.payload
        isControlDataTruncated := false } := by
  rw [Delivery.bytes, uring.parse_eq _ _ _ _ _ message.length_name message.length_control,
    message.namelen, message.controllen, List.take_left, List.take_left,
    List.take_of_length_le message.payloadlen, message.whole]
  rfl

theorem Delivery.fetch (message : Delivery reader.msghdr)
    (h : event.Delivers (message.bytes host)) :
    fetch uring reader event = .ok
      { nameData := message.name
        controlData := message.control
        payloadData := message.payload
        isControlDataTruncated := false } := by
  obtain ⟨hresult, id, hid, hbuf⟩ := h
  have hlen : event.cqe.result.toNat = (message.bytes host).length := by
    rw [hresult]
    exact Int.toNat_natCast _
  have hpos : ¬ (message.bytes host).length = 0 := by
    simp only [Delivery.bytes, List.length_append, RecvMsgHeader.length_bytes, sizeOfRecvmsgOut]
    omega
  simp only [Ringroute.fetch, hid, expect, ok_bind, hlen, if_neg hpos, hbuf,
    message.parse uring]

theorem record_credits {reply : Reply} {id : ProbeId} {probe : Probe} {who : Option SocketAddr}
    (hid : reader.queue.replies.identify reply = some id)
    (hprobe : probes[id.index]? = some probe) (hsent : probe.sentAt = some sentAt)
    (hresult : probe.result = none) (hsource : reply.source = who.map SockAddr.inet) :
    record reader reply now probes = .ok (probes.set id.index
      { probe with
        result := some
          { source := who.map SocketAddr.ip
            rtt := now - sentAt
            kind := reader.queue.replies.classify reply } }) := by
  have hip : reply.sourceIp = .ok (who.map SocketAddr.ip) := by
    rw [Reply.sourceIp, hsource]
    cases who <;> rfl
  have hnone : ¬ probe.result.isSome = true := by
    rw [hresult]
    exact Bool.false_ne_true
  simp only [record, hid, hprobe, if_neg hnone, hsent, hip, ok_bind]
  rfl

theorem handleRead_credits {reply : Reply} {id : ProbeId} {probe : Probe} {who : Option SocketAddr}
    (message : Delivery reader.msghdr) (hdelivers : event.Delivers (message.bytes host))
    (hreply : reader.reply host ⟨message.name, message.control, message.payload, false⟩ =
      .ok (some reply))
    (hid : reader.queue.replies.identify reply = some id)
    (hkind : reader.queue.replies.classify reply = kind) (hprobe : probes[id.index]? = some probe)
    (hsent : probe.sentAt = some sentAt) (hresult : probe.result = none)
    (hsource : reply.source = who.map SockAddr.inet) :
    handleRead uring reader event probes = .ok (probes.set id.index
      { probe with result := some ⟨who.map SocketAddr.ip, event.now - sentAt, kind⟩ }) := by
  have hreceive : receive uring reader event = .ok (some reply) := by
    rw [receive, message.fetch uring hdelivers, ok_bind, hreply]
  rw [handleRead, hreceive, ok_bind, ← hkind]
  exact record_credits hid hprobe hsent hresult hsource

theorem reply_queued (reader : Multishot) (name payload : Bytes) (messages : List (Cmsg host))
    (queued : QueuedError) (hqueue : reader.queue.errQueue = true)
    (hother : ∀ m ∈ messages, m.header.isRecverr = false)
    (hlen : (messages.flatMap Cmsg.bytes ++ (queued.bytes host ++ after)).length ≤ host.isizeMax)
    (hwho : Names host queued.address who) :
    reader.reply host
        { nameData := name
          controlData := messages.flatMap Cmsg.bytes ++ (queued.bytes host ++ after)
          payloadData := payload
          isControlDataTruncated := false } =
      .ok (some
        { source := who.map SockAddr.inet
          destination := parseSockaddr host name
          quoted := payload
          error := some queued.error }) := by
  obtain ⟨found, hfound, hiff⟩ := parseIpRecverr_spec hlen
  rw [(hiff _).mpr (Accepts.of_bytes messages queued after hother hlen)] at hfound
  simp only [Multishot.reply, hqueue, hfound, if_true, Bool.false_eq_true, if_false, hwho.parse]

theorem reply_received (reader : Multishot) (control payload : Bytes)
    (hqueue : reader.queue.errQueue = false) (hwho : Names host name who) :
    reader.reply host ⟨name, control, payload, false⟩ =
      .ok (some ⟨who.map SockAddr.inet, none, payload, none⟩) := by
  simp only [Multishot.reply, hqueue, Bool.false_eq_true, if_false, hwho.parse]

end Pipeline

namespace RunArgs

variable {args : RunArgs} {host : Host} {uring : RecvMsgOutApi host}

/-- A genuine answer is credited to the probe that caused it and to no other. An error that any
router reports about a probe is recorded under the router's address, with the kind of the error, and
an answer to a probe under the address it came from, as the target's. -/
theorem Admitted.answers_credited (h : args.Admitted)
    (hbuild : arg.build pnet system target packetLen = .ok args.method) (hi : i < args.probeCount)
    (hprobe : probes[i]? = some probe) (hsent : Probe.sentAt probe = some sentAt)
    (hresult : probe.result = none) :
    (∀ (reader : Multishot) (event : Event) (message : Delivery reader.msghdr)
      (messages : List (Cmsg host)) (queued : QueuedError) (after : Bytes)
      (who : Option SocketAddr),
      (args.readers host)[1]? = some reader → event.Delivers (message.bytes host) →
      (∀ m ∈ messages, m.header.isRecverr = false) →
      message.control = messages.flatMap Cmsg.bytes ++ (queued.bytes host ++ after) →
      Names host queued.address who →
      Quotes host (args.method.probe ⟨UInt16.ofNat i⟩).1 (args.method.probe ⟨UInt16.ofNat i⟩).2 arg
        message.name message.payload →
      handleRead uring reader event probes = .ok (probes.set i
        { probe with
          result := some ⟨who.map SocketAddr.ip, event.now - sentAt, queued.error.kind⟩ })) ∧
    ∀ (reader : Multishot) (event : Event) (message : Delivery reader.msghdr)
      (who : Option SocketAddr),
      (args.readers host)[0]? = some reader → event.Delivers (message.bytes host) →
      Names host message.name who →
      Answers (args.method.probe ⟨UInt16.ofNat i⟩).1 (args.method.probe ⟨UInt16.ofNat i⟩).2 arg who
        message.payload →
      handleRead uring reader event probes = .ok (probes.set i
        { probe with
          result := some ⟨who.map SocketAddr.ip, event.now - sentAt, .destination⟩ }) := by
  have hcount := h.probeCount_le
  have hnat : (UInt16.ofNat i).toNat = i := UInt16.toNat_ofNat_of_lt' (by change i < 2 ^ 16; omega)
  have hid : (UInt16.ofNat i).toNat ≤ 32101 := by omega
  have hat : (ProbeId.mk (UInt16.ofNat i)).index = i := hnat
  rw [← hat] at hprobe
  constructor
  · intro reader event message messages queued after who hreader hdelivers hother hcontrol hwho
      hquotes
    have hmax := msgControllen_le (List.mem_of_getElem? hreader)
    have hlen : message.control.length ≤ host.isizeMax := by
      have hfield := message.length_control
      rw [List.length_append] at hfield
      omega
    obtain ⟨queue, hqueue, rfl⟩ := readersOf_get hreader
    obtain ⟨herr, hidentify, hclassify⟩ := Quotes.identify ⟨who.map SockAddr.inet,
      parseSockaddr host message.name, message.payload, some queued.error⟩ hbuild hqueue hid hquotes
      rfl rfl
    have hreply := reply_queued (.tryNew host queue 1) message.name message.payload messages queued
      herr hother (hcontrol ▸ hlen) hwho
    rw [← hcontrol] at hreply
    exact hat ▸ handleRead_credits uring message hdelivers hreply hidentify hclassify hprobe hsent
      hresult rfl
  · intro reader event message who hreader hdelivers hwho hanswers
    obtain ⟨queue, hqueue, rfl⟩ := readersOf_get hreader
    obtain ⟨herr, hidentify, hclassify⟩ := Answers.identify
      ⟨who.map SockAddr.inet, none, message.payload, none⟩ hbuild hqueue hid hanswers rfl
    have hreply := reply_received (.tryNew host queue 0) message.control message.payload herr hwho
    exact hat ▸ handleRead_credits uring message hdelivers hreply hidentify hclassify hprobe hsent
      hresult rfl

/-- The TCP method for the loopback address, from a port. -/
def loopbackTcpFrom (port : UInt16) : Tcp := ⟨loopbackAddr, .v4 ⟨.localhost, port⟩, rfl⟩

/-- A TCP trace of the loopback address from port 40000. -/
def loopbackTcp : RunArgs where
  method := (loopbackTcpFrom 40000).method Pnet.layout fun _ => 0
  first := 1
  last := 2
  timeout := 5000000000
  count := 1

theorem loopbackTcp_admitted : loopbackTcp.Admitted :=
  ⟨by decide, by decide, by decide, by decide⟩

def recvReader : Multishot :=
  .tryNew .x86_64 ⟨false, Tcp.tcpReplies Pnet.layout loopbackAddr (.v4 ⟨.localhost, 40000⟩)⟩ 0

def errReader : Multishot :=
  .tryNew .x86_64 ⟨true, errorReplies fun reply => Tcp.identifyFromError reply 40000⟩ 1

/-- An error from a router at 10.0.0.1. -/
def routerError : QueuedError :=
  ⟨false, .v4 11 0 0, 113, 0, 0, [2, 0, 0, 0, 10, 0, 0, 1, 0, 0, 0, 0, 0, 0, 0, 0]⟩

/-- The error, with the start of the first probe. -/
def expired : Delivery errReader.msghdr where
  name := []
  nameRest := .replicate 28 0
  control := routerError.bytes .x86_64
  controlRest := .replicate 16 0
  payload := [156, 64, 0, 80, 0, 0, 0, 0]
  header := ⟨0, 48, 8, 0x2000⟩
  length_name := by decide
  length_control := by decide
  namelen := by decide
  controllen := by decide
  payloadlen := by decide
  whole := by decide

/-- A segment from the target with an acknowledgement, behind its IPv4 header. -/
def acknowledged (acknowledgement : UInt8) : Delivery recvReader.msghdr where
  name := [2, 0, 0, 0, 127, 0, 0, 1, 0, 0, 0, 0, 0, 0, 0, 0]
  nameRest := .replicate 12 0
  control := []
  controlRest := []
  payload := [69, 0, 0, 40] ++ .replicate 16 0 ++
    [0, 80, 156, 64, 0, 0, 0, 0, 0, 0, 0, acknowledgement, 80, 20, 0, 0, 0, 0, 0, 0]
  header := ⟨16, 0, 40, 0⟩
  length_name := rfl
  length_control := rfl
  namelen := rfl
  controllen := rfl
  payloadlen := by exact Nat.le_refl 40
  whole := rfl

theorem router_names :
    Names .x86_64 routerError.address (some (.v4 ⟨⟨#v[10, 0, 0, 1]⟩, 0⟩)) :=
  EncodesSockaddr.of_parse rfl

theorem expired_quotes : Quotes .x86_64 (loopbackTcp.method.probe ⟨0⟩).1
    (loopbackTcp.method.probe ⟨0⟩).2 .tcp expired.name expired.payload :=
  @Quotes.tcp _ _ _ _ []

theorem acknowledged_answers {id : ProbeId} (h : acknowledgement.toNat = id.id.toNat + 1) :
    Answers (loopbackTcp.method.probe id).1 (loopbackTcp.method.probe id).2 .tcp
      (some (.v4 ⟨.localhost, 0⟩)) (acknowledged acknowledgement).payload := by
  have hheader : RawHeader loopbackAddr ([69, 0, 0, 40] ++ .replicate 16 0) :=
    .v4 (by decide) (by decide) (by decide)
  have hid : id.id.toNat < 2 ^ 16 := id.id.toNat_lt
  have hprobe : loopbackTcp.method.probe id =
      (loopbackTcpFrom 40000).probe Pnet.layout 0 id := rfl
  rw [hprobe]
  refine .tcp rfl rfl hheader ⟨Nat.le_refl 20, ?_, ?_, ?_⟩
  · rw [Tcp.probe_destination]
    rfl
  · rw [Tcp.probe_source]
    rfl
  · rw [Tcp.probe_sequence, Bytes.beValue_beBytes 4 _ (by omega), ← h]
    change Bytes.beValue [0, 0, 0, acknowledgement] = _
    simp [Bytes.beValue, Bytes.leValue]

/-- The first probe is answered by a router, and after that by the target: the one is a hop and the
other ends the trace. -/
theorem answers_credited_loopback :
    loopbackTcp.readers .x86_64 = [recvReader, errReader] ∧
      handleRead (.layout .x86_64) errReader (expired.event .x86_64 9) [⟨1, some 7, none⟩] =
        .ok [⟨1, some 7, some ⟨some (.v4 ⟨#v[10, 0, 0, 1]⟩), 2, .hop⟩⟩] ∧
      handleRead (.layout .x86_64) recvReader ((acknowledged 1).event .x86_64 9)
          [⟨1, some 7, none⟩] =
        .ok [⟨1, some 7, some ⟨some loopbackAddr, 2, .destination⟩⟩] := by
  have hbuild : MethodArg.tcp.build Pnet.layout loopbackSystem loopbackAddr 60 =
      .ok loopbackTcp.method := rfl
  have hprobe : ([⟨1, some 7, none⟩] : List Probe)[0]? = some ⟨1, some 7, none⟩ := rfl
  refine ⟨rfl, ?_, ?_⟩
  · exact (loopbackTcp_admitted.answers_credited hbuild (by decide) hprobe rfl rfl).1 errReader
      (expired.event .x86_64 9) expired [] routerError [] _ rfl ⟨rfl, 0, rfl, rfl⟩
      (fun _ hm => absurd hm List.not_mem_nil) (List.append_nil _).symm router_names
      expired_quotes
  · have htarget : Names .x86_64 (acknowledged 1).name (some (.v4 ⟨.localhost, 0⟩)) :=
      EncodesSockaddr.of_parse rfl
    exact (loopbackTcp_admitted.answers_credited hbuild (by decide) hprobe rfl rfl).2 recvReader
      ((acknowledged 1).event .x86_64 9) (acknowledged 1) _ rfl ⟨rfl, 0, rfl, rfl⟩ htarget
      (acknowledged_answers rfl)

end RunArgs

end Ringroute
