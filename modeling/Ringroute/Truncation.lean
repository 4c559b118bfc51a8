import Ringroute.Answers
import Ringroute.Sizing

namespace Ringroute
open Library
set_option autoImplicit true

/-- A reply of which only the first bytes are left. -/
def Reply.cut (reply : Reply) (n : Nat) : Reply := { reply with quoted := reply.quoted.take n }

/-- What a buffer of the given length leaves for the payload of a read, behind its header and the
fields for the name and the control data. -/
def Multishot.payloadRoom (reader : Multishot) (len : Nat) : Nat :=
  len - (sizeOfRecvmsgOut + reader.msghdr.msgNamelen + reader.msghdr.msgControllen)

section Decoders

variable {reply : Reply} {pnet : Pnet} {target : IpAddr} {source : SocketAddr}

theorem sequence_cut (h : 8 ≤ n) : sequence (reply.cut n) = sequence reply := by
  simp only [sequence, Reply.cut, Bytes.slice?_take h]

namespace Tcp

theorem identifyFromError_cut (h : 8 ≤ n) :
    identifyFromError (reply.cut n) port = identifyFromError reply port := by
  have htwo : 2 ≤ n := Nat.le_trans (by decide) h
  simp only [identifyFromError, Reply.cut, Bytes.slice?_take h, Bytes.slice?_take htwo]

/-- The longest header in front of a segment. -/
def maxHeaderLen : IpAddr → Nat
  | .v4 _ => 60
  | .v6 _ => 0

/-- Cutting a packet behind the longest header and a whole segment header cuts the segment behind
its header. -/
theorem carriedSegment_take (cut : Ipv4Cut) (h : maxHeaderLen target + tcpMinHeaderLen ≤ n)
    (quoted : Bytes) :
    ∃ m, tcpMinHeaderLen ≤ m ∧
      carriedSegment cut target (quoted.take n) = (carriedSegment cut target quoted).take m := by
  cases target with
  | v4 ip =>
    have hbounds := ipv4HeaderLen_bounds quoted
    simp only [maxHeaderLen, tcpMinHeaderLen] at h
    have hfirst : (quoted.take n).getD 0 0 = quoted.getD 0 0 := by
      rw [List.getD_eq_getElem?_getD, List.getElem?_take_of_lt (by omega),
        ← List.getD_eq_getElem?_getD]
    have hheader : ipv4HeaderLen (quoted.take n) = ipv4HeaderLen quoted := by
      rw [ipv4HeaderLen, hfirst, ipv4HeaderLen]
    refine ⟨n - ipv4HeaderLen quoted, by rw [tcpMinHeaderLen]; omega, ?_⟩
    have hstop : cut.stop (quoted.take n) = cut.stop quoted := by
      simp only [Ipv4Cut.stop, hfirst, hheader, Bytes.field_take (show 2 + 2 ≤ n by omega)]
    rw [carriedSegment, carriedSegment, hheader, hstop, List.take_take, Nat.min_comm,
      ← List.take_take, List.drop_take]
  | v6 ip => exact ⟨n, Nat.le_of_add_left_le h, rfl⟩

theorem identify_cut (h : maxHeaderLen target + tcpMinHeaderLen ≤ n) :
    (tcpReplies pnet target source).identify (reply.cut n) =
      (tcpReplies pnet target source).identify reply := by
  obtain ⟨m, hm, hcarried⟩ := carriedSegment_take pnet.cut h reply.quoted
  simp only [tcpMinHeaderLen] at hm
  have hwhole : tcpMinHeaderLen ≤ ((carriedSegment pnet.cut target reply.quoted).take m).length ↔
      tcpMinHeaderLen ≤ (carriedSegment pnet.cut target reply.quoted).length := by
    rw [List.length_take, tcpMinHeaderLen]
    omega
  apply Option.ext
  intro id
  rw [identify_eq_some_iff, identify_eq_some_iff, Reply.cut, hcarried, hwhole,
    Bytes.field_take (by omega), Bytes.field_take (by omega), Bytes.field_take (by omega)]

end Tcp

end Decoders

section Room

variable {host : Host} {method : Method} {queue : ReplyQueue} {arg : MethodArg}

/-- A read of the receive queue has the room that a read of the error queue has for its control
data on top of the largest reply. -/
theorem payloadRoom_eq (hlen : bufferLen true host method = .ok len) (slot : UInt16) :
    (Multishot.tryNew host queue slot).payloadRoom len =
      if queue.errQueue then method.maxReplyLen
      else recverrControlLen host + method.maxReplyLen := by
  rw [bufferLen_eq hlen, Multishot.payloadRoom, Multishot.tryNew, recvmsgOverhead]
  cases queue.errQueue with
  | true =>
    simp only [if_true]
    omega
  | false =>
    simp only [Bool.false_eq_true, if_false]
    omega

theorem mem_queues (hqueue : queue ∈ [first, second]) : queue = first ∨ queue = second := by
  simpa only [List.mem_cons, List.not_mem_nil, or_false] using hqueue

theorem identify_cut_room (hbuild : arg.build pnet system target packetLen = .ok method)
    (hlen : bufferLen true host method = .ok len) (hqueue : queue ∈ method.queues) (slot : UInt16)
    (reply : Reply) :
    queue.replies.identify (reply.cut ((Multishot.tryNew host queue slot).payloadRoom len)) =
      queue.replies.identify reply := by
  have hcontrol := (recverrControlLen_bounds host).1
  rw [payloadRoom_eq hlen]
  have hbuilt := MethodArg.build_ok hbuild
  cases arg with
  | icmp =>
    obtain ⟨icmp, rfl⟩ := hbuilt
    have hleast : 8 ≤ icmp.method.maxReplyLen := Nat.le_add_right ..
    rcases mem_queues hqueue with rfl | rfl
    · exact sequence_cut (Nat.le_add_left_of_le hleast)
    · exact sequence_cut hleast
  | udp =>
    obtain ⟨udp, rfl⟩ := hbuilt
    rcases mem_queues hqueue with rfl | rfl
    · rfl
    · rfl
  | tcp =>
    obtain ⟨tcp, rfl⟩ := hbuilt
    rcases mem_queues hqueue with rfl | rfl
    · apply Tcp.identify_cut
      change _ ≤ recverrControlLen host + tcp.maxReplyLen
      simp only [Tcp.maxReplyLen, tcpMinHeaderLen, minIpv4HeaderLen]
      cases tcp.target <;> simp only [Tcp.maxHeaderLen] <;> omega
    · apply Tcp.identifyFromError_cut
      change 8 ≤ tcp.maxReplyLen
      simp only [Tcp.maxReplyLen, tcpMinHeaderLen]
      omega

/-- A reply cut to the buffer it is read into identifies the probe that the whole reply identifies.
An answer to a TCP probe identifies it behind a header with any options. -/
theorem replies_survive_cut (hbuild : arg.build pnet system target packetLen = .ok method)
    (hlen : bufferLen true host method = .ok len) (hqueue : queue ∈ method.queues) (slot : UInt16) :
    (∀ reply : Reply,
      queue.replies.identify (reply.cut ((Multishot.tryNew host queue slot).payloadRoom len)) =
        queue.replies.identify reply) ∧
    ∀ (reply : Reply) (id : ProbeId) (socket destination : SocketAddr) (header segment : Bytes),
      arg = .tcp → queue.errQueue = false → (method.probe id).2 = .inet destination →
      reply.source = some (.inet socket) → socket.ip = destination.ip →
      RawHeader destination.ip header → Acknowledges (method.probe id).1 segment →
      reply.quoted = header ++ segment →
      queue.replies.identify (reply.cut ((Multishot.tryNew host queue slot).payloadRoom len)) =
        some id := by
  refine ⟨identify_cut_room hbuild hlen hqueue slot, ?_⟩
  intro reply id socket destination header segment harg hreceive hdestination hsource hip hheader
    hsegment hquoted
  rw [identify_cut_room hbuild hlen hqueue slot]
  subst harg
  obtain ⟨tcp, rfl⟩ := MethodArg.build_ok hbuild
  rcases mem_queues hqueue with rfl | rfl
  · cases hdestination
    rw [SocketAddr.new_ip] at hip hheader
    exact Tcp.identify_segment hsource hip hquoted hheader hsegment
  · cases hreceive

/-- An IPv4 header of 60 bytes and a segment with 40 bytes of options, of which 16 do not fit. -/
theorem largest_header_survives_cut :
    let queue : ReplyQueue :=
      ⟨false, Tcp.tcpReplies Pnet.layout loopbackAddr (.v4 ⟨.localhost, 40000⟩)⟩
    let reply : Reply :=
      { source := some (.inet (.v4 ⟨.localhost, 0⟩))
        destination := none
        quoted := ([79, 0, 0, 120] ++ List.replicate 56 0) ++
          ([0, 80, 156, 64, 0, 0, 0, 0, 0, 0, 0, 1, 240, 18] ++ List.replicate 46 0)
        error := none }
    (Multishot.tryNew .x86_64 queue 0).payloadRoom 148 = 104 ∧ reply.quoted.length = 120 ∧
      queue.replies.identify (reply.cut 104) = queue.replies.identify reply ∧
      queue.replies.identify (reply.cut 104) = some ⟨0⟩ := by
  intro queue reply
  let tcp : Tcp := ⟨loopbackAddr, .v4 ⟨.localhost, 40000⟩, rfl⟩
  have hbuild : MethodArg.tcp.build Pnet.layout loopbackSystem loopbackAddr 60 =
      .ok (tcp.method Pnet.layout fun _ => 0) := rfl
  have hlen : bufferLen true .x86_64 (tcp.method Pnet.layout fun _ => 0) = .ok 148 := rfl
  have hheader : RawHeader loopbackAddr ([79, 0, 0, 120] ++ List.replicate 56 0) :=
    .v4 (by decide) (by decide) (by decide)
  have hsegment : Acknowledges (tcp.probe Pnet.layout 0 ⟨0⟩).1
      ([0, 80, 156, 64, 0, 0, 0, 0, 0, 0, 0, 1, 240, 18] ++ List.replicate 46 0) :=
    ⟨by decide, by decide, by decide, by decide⟩
  have hqueue : queue ∈ tcp.queues Pnet.layout := List.mem_cons_self
  have hcut := replies_survive_cut hbuild hlen hqueue 0
  refine ⟨rfl, rfl, hcut.1 reply, ?_⟩
  exact hcut.2 reply ⟨0⟩ (.v4 ⟨.localhost, 0⟩) (.v4 ⟨.localhost, 80⟩) _ _ rfl rfl rfl rfl rfl
    hheader hsegment rfl

end Room

end Ringroute
