import Ringroute.Args
import Ringroute.Method.TcpReplies
import Ringroute.Method.UdpPorts
import Ringroute.Net.Sockaddr

namespace Ringroute
open Library
set_option autoImplicit true

/-- What the error queue of a method's socket gives back of a probe: an ICMP probe without the
checksum and the identifier, which the kernel has filled in, the address a UDP probe went to, or
the start of a TCP probe. -/
inductive Quotes (host : Host) (packet : Bytes) (destination : SockAddr) :
    MethodArg → Bytes → Bytes → Prop where
  | icmp (h : filled.length = 4) :
      Quotes host packet destination .icmp name
        (packet.take 2 ++ (filled ++ (packet.field 6 2 ++ rest)))
  | udp (hname : EncodesSockaddr host name socket) (hdestination : destination = .inet target)
      (hip : socket.ip = target.ip) (hport : socket.port = target.port) :
      Quotes host packet destination .udp name payload
  | tcp : Quotes host packet destination .tcp name (packet.take 8 ++ rest)

/-- A segment with the ports of a SYN swapped that acknowledges it. -/
structure Acknowledges (syn segment : Bytes) : Prop where
  whole : tcpMinHeaderLen ≤ segment.length
  source : segment.field 0 2 = syn.field 2 2
  destination : segment.field 2 2 = syn.field 0 2
  acknowledgement : Bytes.beValue (segment.field 8 4) = Bytes.beValue (syn.field 4 4) + 1

/-- What the receive queue of a method's socket brings when a probe is answered: an echo reply with
its sequence number, a datagram from where it went, or the segment that acknowledges it. -/
inductive Answers (packet : Bytes) (destination : SockAddr) :
    MethodArg → Option SocketAddr → Bytes → Prop where
  | icmp (h : head.length = 6) :
      Answers packet destination .icmp who (head ++ (packet.field 6 2 ++ rest))
  | udp (hdestination : destination = .inet target) (hip : socket.ip = target.ip)
      (hport : socket.port = target.port) :
      Answers packet destination .udp (some socket) payload
  | tcp {header segment : Bytes} (hdestination : destination = .inet target)
      (hip : socket.ip = target.ip) (hheader : RawHeader target.ip header)
      (hsegment : Acknowledges packet segment) :
      Answers packet destination .tcp (some socket) (header ++ segment)

theorem Icmp.probe_sequence (icmp : Icmp) (id : ProbeId) :
    (icmp.probe id).1.field 6 2 = Bytes.beBytes 2 id.id.toNat := by
  simp only [Icmp.probe, Bytes.overwrite, List.append_assoc]
  rw [Bytes.field_skip (n := 6) ?_ (Nat.le_refl 6)]
  · exact Bytes.field_append_self (Bytes.length_beBytes ..)
  · simp only [List.length_take, List.length_set, List.length_replicate, echoHeaderLen]
    omega

theorem Icmp.length_probe (icmp : Icmp) (id : ProbeId) :
    (icmp.probe id).1.length = echoHeaderLen + icmp.payloadLen := by
  simp only [Icmp.probe, Bytes.overwrite, List.length_append, List.length_take, List.length_drop,
    List.length_set, List.length_replicate, Bytes.length_beBytes, echoHeaderLen]
  omega

theorem Icmp.sequence_probe {icmp : Icmp} {id : ProbeId} (hpre : pre.length = 6)
    (h : reply.quoted = pre ++ ((icmp.probe id).1.field 6 2 ++ rest)) :
    sequence reply = some id := by
  have hlen : (Bytes.beBytes 2 id.id.toNat).length = 2 := Bytes.length_beBytes ..
  have hslice := @Bytes.slice?_append pre (Bytes.beBytes 2 id.id.toNat) rest
  rw [hpre, hlen, List.append_assoc, ← icmp.probe_sequence, ← h, icmp.probe_sequence] at hslice
  simp only [sequence, hslice, Option.bind_eq_bind, Option.bind_some,
    Bytes.beValue_beBytes 2 _ id.id.toNat_lt, UInt16.ofNat_toNat]
  rfl

namespace Tcp

variable {pnet : Pnet} {tcp : Tcp} {id : ProbeId} {header segment : Bytes}

theorem identifyFromError_probe
    (h : reply.quoted = (tcp.probe pnet timestamp id).1.take 8 ++ rest) :
    identifyFromError reply tcp.source.port = some id := by
  have hlen : 8 ≤ reply.quoted.length := by
    rw [h, List.length_append, length_probe_take]
    omega
  have htake : reply.quoted.take 8 = (tcp.probe pnet timestamp id).1.take 8 := by
    rw [h, List.take_left' length_probe_take]
  obtain ⟨hport, _, hsequence⟩ := (take_eq_probe_iff hlen).mp htake
  exact identifyFromError_eq_some_iff.mpr ⟨hlen, hport, hsequence⟩

theorem identify_segment (hsource : reply.source = some (.inet socket))
    (hip : socket.ip = tcp.target) (hquoted : reply.quoted = header ++ segment)
    (hheader : RawHeader tcp.target header)
    (h : Acknowledges (tcp.probe pnet timestamp id).1 segment) :
    (tcpReplies pnet tcp.target tcp.source).identify reply = some id := by
  have hid : id.id.toNat < 2 ^ 16 := id.id.toNat_lt
  have hwhole := h.whole
  obtain ⟨n, hn, hcarried⟩ := carriedSegment_raw hheader segment
  simp only [tcpMinHeaderLen] at hn hwhole
  refine identify_eq_some_iff.mpr ⟨⟨socket, hsource, hip⟩, ?_⟩
  rw [hquoted, hcarried, Bytes.field_take (by omega), Bytes.field_take (by omega),
    Bytes.field_take (by omega), h.source, h.destination, h.acknowledgement, probe_source,
    probe_destination, probe_sequence, Bytes.beValue_beBytes 2 _ tcp.source.port.toNat_lt,
    Bytes.beValue_beBytes 2 _ destPort.toNat_lt, Bytes.beValue_beBytes 4 _ (by omega)]
  refine ⟨?_, rfl, rfl, rfl⟩
  rw [List.length_take]
  exact Nat.le_min.mpr ⟨hn, hwhole⟩

end Tcp

section Queues

variable {host : Host} {pnet : Pnet} {system : TcpSystem} {target : IpAddr} {packetLen : Nat}
  {arg : MethodArg} {method : Method} {queue : ReplyQueue} {id : ProbeId}

/-- The error queue of a method identifies the probe that is quoted, and classifies the reply by
its error. -/
theorem Quotes.identify (reply : Reply)
    (hbuild : arg.build pnet system target packetLen = .ok method)
    (hqueue : method.queues[1]? = some queue) (hid : id.id.toNat ≤ 32101)
    (h : Quotes host (method.probe id).1 (method.probe id).2 arg name reply.quoted)
    (hname : reply.destination = parseSockaddr host name) (herror : reply.error = some error) :
    queue.errQueue = true ∧ queue.replies.identify reply = some id ∧
      queue.replies.classify reply = error.kind := by
  have hclassify (identify : Reply → Option ProbeId) :
      (errorReplies identify).classify reply = error.kind := by
    simp only [errorReplies, herror]
  have hback := (Udp.checkedSub_portOf_eq_iff id).mpr hid
  have hbuilt := MethodArg.build_ok hbuild
  generalize hquoted : reply.quoted = quoted at h
  cases h with
  | @icmp _ filled rest hfilled =>
    obtain ⟨icmp, rfl⟩ := hbuilt
    cases hqueue
    have hpre : ((icmp.probe id).1.take 2 ++ filled).length = 6 := by
      rw [List.length_append, List.length_take, icmp.length_probe, hfilled, echoHeaderLen]
      omega
    exact ⟨rfl, Icmp.sequence_probe hpre (hquoted.trans (List.append_assoc ..).symm), hclassify _⟩
  | udp hsocket hdestination hip hport =>
    obtain ⟨udp, rfl⟩ := hbuilt
    cases hqueue
    cases hdestination
    rw [hsocket.parse] at hname
    rw [SocketAddr.new_port] at hport
    exact ⟨rfl, (Udp.identifyFromError_port hname hport).trans hback, hclassify _⟩
  | tcp =>
    obtain ⟨tcp, rfl⟩ := hbuilt
    cases hqueue
    exact ⟨rfl, Tcp.identifyFromError_probe hquoted, hclassify _⟩

/-- The receive queue of a method identifies the probe that is answered, and takes the answer for
the target's. -/
theorem Answers.identify (reply : Reply)
    (hbuild : arg.build pnet system target packetLen = .ok method)
    (hqueue : method.queues[0]? = some queue) (hid : id.id.toNat ≤ 32101)
    (h : Answers (method.probe id).1 (method.probe id).2 arg who reply.quoted)
    (hsource : reply.source = who.map SockAddr.inet) :
    queue.errQueue = false ∧ queue.replies.identify reply = some id ∧
      queue.replies.classify reply = .destination := by
  have hback := (Udp.checkedSub_portOf_eq_iff id).mpr hid
  have hbuilt := MethodArg.build_ok hbuild
  generalize hquoted : reply.quoted = quoted at h
  cases h with
  | icmp hhead =>
    obtain ⟨icmp, rfl⟩ := hbuilt
    cases hqueue
    exact ⟨rfl, Icmp.sequence_probe hhead hquoted, rfl⟩
  | udp hdestination hip hport =>
    obtain ⟨udp, rfl⟩ := hbuilt
    cases hqueue
    cases hdestination
    rw [SocketAddr.new_ip] at hip
    rw [SocketAddr.new_port] at hport
    exact ⟨rfl, (Udp.identify_port hsource hip hport).trans hback, rfl⟩
  | tcp hdestination hip hheader hsegment =>
    obtain ⟨tcp, rfl⟩ := hbuilt
    cases hqueue
    cases hdestination
    rw [SocketAddr.new_ip] at hip hheader
    exact ⟨rfl, Tcp.identify_segment hsource hip hquoted hheader hsegment, rfl⟩

end Queues

end Ringroute
