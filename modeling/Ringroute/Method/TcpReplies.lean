import Ringroute.Method.Tcp

namespace Ringroute
open Library
set_option autoImplicit true

/-- The header that a raw socket leaves before a segment, with any options. -/
inductive RawHeader : IpAddr → Bytes → Prop where
  | v4 (ihl : header.length = (header.getD 0 0).toNat % 16 * 4)
      (least : minIpv4HeaderLen ≤ header.length)
      (total : header.length + tcpMinHeaderLen ≤ Bytes.beValue (header.field 2 2)) :
      RawHeader (.v4 ip) header
  | v6 : RawHeader (.v6 ip) []

namespace Tcp

section Probes

variable {pnet : Pnet} {tcp : Tcp} {id : ProbeId}

theorem probe_take : (tcp.probe pnet timestamp id).1.take 8 =
    Bytes.beBytes 2 tcp.source.port.toNat ++ (Bytes.beBytes 2 destPort.toNat ++
      Bytes.beBytes 4 id.id.toNat) := by
  rw [← List.append_assoc, ← UInt16.toNat_toUInt32]
  exact pnet.tcpBuffer_take _ _ (by decide)

theorem probe_field (h : offset + width ≤ 8) : (tcp.probe pnet timestamp id).1.field offset width =
    Bytes.field (Bytes.beBytes 2 tcp.source.port.toNat ++ (Bytes.beBytes 2 destPort.toNat ++
      Bytes.beBytes 4 id.id.toNat)) offset width := by
  rw [← probe_take, Bytes.field_take h]

theorem probe_source : (tcp.probe pnet timestamp id).1.field 0 2 =
    Bytes.beBytes 2 tcp.source.port.toNat := by
  rw [probe_field (by omega), Bytes.field_append_self (Bytes.length_beBytes ..)]

theorem probe_destination : (tcp.probe pnet timestamp id).1.field 2 2 =
    Bytes.beBytes 2 destPort.toNat := by
  rw [probe_field (by omega), Bytes.field_skip (Bytes.length_beBytes ..) (Nat.le_refl 2),
    Bytes.field_append_self (Bytes.length_beBytes ..)]

theorem probe_sequence : (tcp.probe pnet timestamp id).1.field 4 4 =
    Bytes.beBytes 4 id.id.toNat := by
  rw [probe_field (by omega), Bytes.field_skip (Bytes.length_beBytes ..) (by omega),
    Bytes.field_skip (Bytes.length_beBytes ..) (by omega), Nat.sub_self,
    Bytes.field_self (Bytes.length_beBytes ..)]

theorem length_probe_take : ((tcp.probe pnet timestamp id).1.take 8).length = 8 := by
  rw [probe_take]
  simp only [List.length_append, Bytes.length_beBytes]

end Probes

section Segments

variable {pnet : Pnet} {target : IpAddr} {quoted segment : Bytes}

/-- The segment that a raw socket hands over with a packet from the target. -/
def segmentOf (pnet : Pnet) (target : IpAddr) (quoted : Bytes) : Option Bytes :=
  match target with
  | .v4 _ => pnet.ipv4Payload quoted
  | .v6 _ => some quoted

/-- The segment that stands in a packet: behind the header and as far as the cut in one of IPv4,
the packet itself in one of IPv6. -/
def carriedSegment (cut : Ipv4Cut) (target : IpAddr) (quoted : Bytes) : Bytes :=
  match target with
  | .v4 _ => (quoted.take (cut.stop quoted)).drop (ipv4HeaderLen quoted)
  | .v6 _ => quoted

theorem ipv4HeaderLen_bounds (packet : Bytes) :
    minIpv4HeaderLen ≤ ipv4HeaderLen packet ∧ ipv4HeaderLen packet ≤ 60 := by
  simp only [ipv4HeaderLen, minIpv4HeaderLen]
  omega

/-- Any cut is at the total length for a header whose IHL is not too small. -/
theorem stop_eq {cut : Ipv4Cut} {packet : Bytes}
    (hihl : ipv4HeaderLen packet = (packet.getD 0 0).toNat % 16 * 4)
    (htotal : ipv4HeaderLen packet ≤ Bytes.beValue (packet.field 2 2)) :
    cut.stop packet = Bytes.beValue (packet.field 2 2) := by
  cases cut with
  | totalLength => rfl
  | payloadLength =>
    simp only [Ipv4Cut.stop, ← hihl]
    exact Nat.add_sub_cancel' htotal

/-- Behind a header stands what its total length leaves of the segment. -/
theorem carriedSegment_raw {cut : Ipv4Cut} (h : RawHeader target header) (segment : Bytes) :
    ∃ n, tcpMinHeaderLen ≤ n ∧
      carriedSegment cut target (header ++ segment) = segment.take n := by
  cases h with
  | v4 ihl least total =>
    refine ⟨Bytes.beValue (header.field 2 2) - header.length, by omega, ?_⟩
    simp only [minIpv4HeaderLen, tcpMinHeaderLen] at least total
    have hfirst : (header ++ segment).getD 0 0 = header.getD 0 0 := by
      rw [List.getD_eq_getElem?_getD, List.getElem?_append_left (by omega),
        ← List.getD_eq_getElem?_getD]
    have hlen : ipv4HeaderLen (header ++ segment) = header.length := by
      rw [ipv4HeaderLen, hfirst]
      omega
    have hfield : (header ++ segment).field 2 2 = header.field 2 2 :=
      Bytes.field_append_left (by omega)
    have hstop : cut.stop (header ++ segment) = Bytes.beValue (header.field 2 2) := by
      rw [stop_eq (by rw [hlen, hfirst]; exact ihl) (by rw [hlen, hfield]; omega), hfield]
    rw [carriedSegment, hlen, hstop, List.take_append, List.take_of_length_le (by omega),
      List.drop_left]
  | v6 => exact ⟨max tcpMinHeaderLen segment.length, Nat.le_max_left .., by
      rw [List.take_of_length_le (Nat.le_max_right ..)]; rfl⟩

theorem segmentOf_some (h : segmentOf pnet target quoted = some segment) :
    segment = carriedSegment pnet.cut target quoted := by
  cases target with
  | v4 ip =>
    simp only [segmentOf, pnet.ipv4Payload_eq] at h
    split at h
    · cases h
    · exact (Option.some.inj h).symm
  | v6 ip => exact (Option.some.inj h).symm

theorem segmentOf_carried (h : tcpMinHeaderLen ≤ (carriedSegment pnet.cut target quoted).length) :
    segmentOf pnet target quoted = some (carriedSegment pnet.cut target quoted) := by
  cases target with
  | v4 ip =>
    have hheader := (ipv4HeaderLen_bounds quoted).1
    simp only [carriedSegment, List.length_drop, List.length_take, tcpMinHeaderLen,
      minIpv4HeaderLen] at h hheader
    simp only [segmentOf, pnet.ipv4Payload_eq]
    rw [if_neg (by omega)]
    rfl
  | v6 ip => rfl

theorem tcpPacket_eq_some_iff {packet : TcpPacket} : pnet.tcpPacket segment = some packet ↔
    tcpMinHeaderLen ≤ segment.length ∧
      packet.source.toNat = Bytes.beValue (segment.field 0 2) ∧
      packet.destination.toNat = Bytes.beValue (segment.field 2 2) ∧
      packet.acknowledgement.toNat = Bytes.beValue (segment.field 8 4) := by
  have hsource := Bytes.beValue_field_lt segment 0 2
  have hdestination := Bytes.beValue_field_lt segment 2 2
  have hacknowledgement := Bytes.beValue_field_lt segment 8 4
  rw [pnet.tcpPacket_eq, tcpMinHeaderLen]
  by_cases hlen : segment.length < 20
  · rw [if_pos hlen]
    refine iff_of_false ?_ fun h => absurd h.1 (Nat.not_le_of_lt hlen)
    exact Option.some_ne_none packet ∘ Eq.symm
  · rw [if_neg hlen, Option.some_inj]
    constructor
    · rintro rfl
      exact ⟨Nat.le_of_not_lt hlen, UInt16.toNat_ofNat_of_lt' hsource,
        UInt16.toNat_ofNat_of_lt' hdestination, UInt32.toNat_ofNat_of_lt' hacknowledgement⟩
    · rintro ⟨_, hs, hd, ha⟩
      obtain ⟨source, destination, acknowledgement⟩ := packet
      simp only at hs hd ha
      rw [← hs, ← hd, ← ha, UInt16.ofNat_toNat, UInt16.ofNat_toNat, UInt32.ofNat_toNat]

theorem exists_tcpPacket (h : tcpMinHeaderLen ≤ segment.length) :
    ∃ packet, pnet.tcpPacket segment = some packet :=
  ⟨_, (pnet.tcpPacket_eq segment).trans (if_neg (Nat.not_lt_of_le h))⟩

theorem acknowledged_iff (acknowledgement : UInt32) (id : ProbeId) :
    (acknowledgement ≠ 0 ∧ (acknowledgement - 1).toNat < 2 ^ 16 ∧
      ProbeId.mk (acknowledgement - 1).toUInt16 = id) ↔
      acknowledgement.toNat = id.id.toNat + 1 := by
  have hid : id.id.toNat < 2 ^ 16 := id.id.toNat_lt
  have hone : (1 : UInt32).toNat = 1 := rfl
  have hzero : acknowledgement = 0 ↔ acknowledgement.toNat = 0 :=
    ⟨fun h => h ▸ rfl, fun h => UInt32.toNat_inj.mp h⟩
  by_cases hz : acknowledgement.toNat = 0
  · refine iff_of_false (fun h => h.1 (hzero.mpr hz)) ?_
    omega
  · have hle : (1 : UInt32) ≤ acknowledgement := by
      rw [UInt32.le_iff_toNat_le, hone]
      omega
    have hsub := UInt32.toNat_sub_of_le _ _ hle
    rw [hone] at hsub
    constructor
    · rintro ⟨_, hlt, rfl⟩
      rw [UInt32.toNat_toUInt16, Nat.mod_eq_of_lt hlt]
      omega
    · intro h
      refine ⟨fun hc => hz (hzero.mp hc), by omega, ?_⟩
      obtain ⟨id⟩ := id
      congr 1
      apply UInt16.toNat_inj.mp
      rw [UInt32.toNat_toUInt16, Nat.mod_eq_of_lt (by omega), hsub, h]
      exact Nat.add_sub_cancel ..

/-- The end of `identify`, which looks at the ports and the acknowledgement. -/
def identifyPacket (source : SocketAddr) (packet : TcpPacket) : Option ProbeId :=
  if (packet.source, packet.destination) ≠ (destPort, source.port) then none
  else if packet.acknowledgement = 0 then none
  else
    let sequence := packet.acknowledgement - 1
    if sequence.toNat < 2 ^ 16 then return ⟨sequence.toUInt16⟩ else none

theorem identifyPacket_eq_some_iff {source : SocketAddr} {packet : TcpPacket} {id : ProbeId} :
    identifyPacket source packet = some id ↔
      packet.source = destPort ∧ packet.destination = source.port ∧
        packet.acknowledgement.toNat = id.id.toNat + 1 := by
  rw [identifyPacket, ← acknowledged_iff]
  by_cases hports : (packet.source, packet.destination) = (destPort, source.port)
  · rw [if_neg (not_not_intro hports)]
    obtain ⟨hsource, hdestination⟩ := Prod.mk.inj hports
    simp only [hsource, hdestination, true_and]
    by_cases hz : packet.acknowledgement = 0
    · rw [if_pos hz]
      exact iff_of_false (Option.some_ne_none id ∘ Eq.symm) fun h => h.1 hz
    · rw [if_neg hz]
      by_cases hlt : (packet.acknowledgement - 1).toNat < 2 ^ 16
      · simp only [hz, ne_eq, not_false_eq_true, hlt, true_and]
        exact Option.some_inj
      · simp only [if_neg hlt]
        exact iff_of_false (Option.some_ne_none id ∘ Eq.symm) fun h => hlt h.2.1
  · rw [if_pos hports]
    refine iff_of_false (Option.some_ne_none id ∘ Eq.symm) ?_
    rintro ⟨hsource, hdestination, _⟩
    exact hports (Prod.ext hsource hdestination)

theorem identify_eq (source : SocketAddr) (reply : Reply) :
    (tcpReplies pnet target source).identify reply =
      (reply.source.bind SockAddr.asSocket).bind fun socket =>
        if socket.ip ≠ target then none
        else (segmentOf pnet target reply.quoted).bind fun segment =>
          (pnet.tcpPacket segment).bind (identifyPacket source) := by
  cases target with
  | v4 ip => exact (Option.bind_assoc ..).symm
  | v6 ip => exact (Option.bind_assoc ..).symm

theorem identify_eq_some_iff {source : SocketAddr} {id : ProbeId} :
    (tcpReplies pnet target source).identify reply = some id ↔
      (∃ socket, reply.source = some (.inet socket) ∧ socket.ip = target) ∧
      tcpMinHeaderLen ≤ (carriedSegment pnet.cut target reply.quoted).length ∧
      Bytes.beValue ((carriedSegment pnet.cut target reply.quoted).field 0 2) = destPort.toNat ∧
      Bytes.beValue ((carriedSegment pnet.cut target reply.quoted).field 2 2) = source.port.toNat ∧
      Bytes.beValue ((carriedSegment pnet.cut target reply.quoted).field 8 4) =
        id.id.toNat + 1 := by
  rw [identify_eq]
  constructor
  · intro h
    obtain ⟨socket, hsocket, h⟩ := Option.bind_eq_some_iff.mp h
    obtain ⟨addr, haddr, hinet⟩ := Option.bind_eq_some_iff.mp hsocket
    split at h
    · cases h
    · rename_i hip
      obtain ⟨segment, hsegment, h⟩ := Option.bind_eq_some_iff.mp h
      obtain ⟨packet, hpacket, h⟩ := Option.bind_eq_some_iff.mp h
      obtain ⟨hsource, hdestination, hack⟩ := identifyPacket_eq_some_iff.mp h
      obtain ⟨hlen, hs, hd, ha⟩ := tcpPacket_eq_some_iff.mp hpacket
      rw [← segmentOf_some hsegment]
      refine ⟨⟨socket, ?_, not_not.mp hip⟩, hlen, ?_, ?_, ?_⟩
      · cases addr with
        | inet addr =>
          cases hinet
          exact haddr
        | other family => cases hinet
      · rw [← hs, hsource]
      · rw [← hd, hdestination]
      · rw [← ha, hack]
  · rintro ⟨⟨socket, hsource, hip⟩, hlen, hs, hd, ha⟩
    obtain ⟨packet, hpacket⟩ := @exists_tcpPacket pnet _ hlen
    obtain ⟨_, hs', hd', ha'⟩ := tcpPacket_eq_some_iff.mp hpacket
    rw [hsource, Option.bind_some, SockAddr.asSocket, Option.bind_some, if_neg (not_not.mpr hip),
      segmentOf_carried hlen, Option.bind_some, hpacket, Option.bind_some,
      identifyPacket_eq_some_iff]
    exact ⟨UInt16.toNat_inj.mp (hs'.trans hs), UInt16.toNat_inj.mp (hd'.trans hd), ha'.trans ha⟩

end Segments

section Answered

/-- A segment between two ports with no options, as a raw socket reads it from the target. -/
def segmentBetween (target : IpAddr) (sourcePort destinationPort : UInt16)
    (acknowledgement : Nat) : Bytes :=
  let segment := Bytes.beBytes 2 sourcePort.toNat ++ (Bytes.beBytes 2 destinationPort.toNat ++
    (List.replicate 4 0 ++ (Bytes.beBytes 4 acknowledgement ++ List.replicate 8 0)))
  match target with
  | .v4 _ => ([69, 0, 0, 40] ++ List.replicate 16 0) ++ segment
  | .v6 _ => [] ++ segment

theorem carriedSegment_between (cut : Ipv4Cut) (target : IpAddr)
    (sourcePort destinationPort : UInt16) (acknowledgement : Nat) :
    carriedSegment cut target (segmentBetween target sourcePort destinationPort acknowledgement) =
      Bytes.beBytes 2 sourcePort.toNat ++ (Bytes.beBytes 2 destinationPort.toNat ++
        (List.replicate 4 0 ++ (Bytes.beBytes 4 acknowledgement ++ List.replicate 8 0))) := by
  have hshort (n : Nat) (hn : tcpMinHeaderLen ≤ n) :
      (Bytes.beBytes 2 sourcePort.toNat ++ (Bytes.beBytes 2 destinationPort.toNat ++
        (List.replicate 4 0 ++ (Bytes.beBytes 4 acknowledgement ++ List.replicate 8 0)))).length
        ≤ n := by
    simp only [List.length_append, Bytes.length_beBytes, List.length_replicate]
    exact hn
  cases target with
  | v4 ip =>
    have hheader : RawHeader (.v4 ip) ([69, 0, 0, 40] ++ List.replicate 16 0) :=
      .v4 (by decide) (by decide) (by decide)
    obtain ⟨n, hn, hcarried⟩ := carriedSegment_raw hheader (_ ++ _)
    exact hcarried.trans (List.take_of_length_le (hshort n hn))
  | v6 ip => rfl

/-- What the target answers to a probe. -/
def answerTo (tcp : Tcp) (id : ProbeId) : Reply where
  source := some (.inet (SocketAddr.new tcp.target 0))
  destination := none
  quoted := segmentBetween tcp.target destPort tcp.source.port (id.id.toNat + 1)
  error := none

theorem answerTo_acknowledges (cut : Ipv4Cut) (tcp : Tcp) (id : ProbeId) :
    Bytes.beValue ((carriedSegment cut tcp.target (answerTo tcp id).quoted).field 8 4) =
      id.id.toNat + 1 := by
  have hid : id.id.toNat < 2 ^ 16 := id.id.toNat_lt
  have hport (port : UInt16) : (Bytes.beBytes 2 port.toNat).length = 2 := Bytes.length_beBytes ..
  rw [answerTo, carriedSegment_between, Bytes.field_skip (hport _) (by omega),
    Bytes.field_skip (hport _) (by omega), Bytes.field_skip List.length_replicate (by omega),
    Nat.sub_self, Bytes.field_append_self (Bytes.length_beBytes ..),
    Bytes.beValue_beBytes 4 _ (by omega)]

theorem answerTo_identified (pnet : Pnet) (tcp : Tcp) (id : ProbeId) :
    (tcpReplies pnet tcp.target tcp.source).identify (answerTo tcp id) = some id := by
  have hport (port : UInt16) : (Bytes.beBytes 2 port.toNat).length = 2 := Bytes.length_beBytes ..
  have hcarried :=
    carriedSegment_between pnet.cut tcp.target destPort tcp.source.port (id.id.toNat + 1)
  refine identify_eq_some_iff.mpr
    ⟨⟨_, rfl, SocketAddr.new_ip ..⟩, ?_, ?_, ?_, answerTo_acknowledges pnet.cut tcp id⟩
  · rw [answerTo, hcarried]
    simp only [List.length_append, Bytes.length_beBytes, List.length_replicate]
    exact Nat.le_refl _
  · rw [answerTo, hcarried, Bytes.field_append_self (hport _),
      Bytes.beValue_beBytes 2 _ destPort.toNat_lt]
  · rw [answerTo, hcarried, Bytes.field_skip (hport _) (by omega), Nat.sub_self,
      Bytes.field_append_self (hport _), Bytes.beValue_beBytes 2 _ tcp.source.port.toNat_lt]

/-- The receive queue takes exactly the answers of the target to the probes of the trace: the
segments from its port to the trace's that acknowledge the sequence number of a probe, whether an
IPv4 payload is cut at the total length or where the library cuts it. Every probe has one, and no
acknowledgement outside of 1 to 65536 is for a probe. -/
theorem answers_identified_iff (pnet : Pnet) (tcp : Tcp) (timestamp : UInt32) :
    (∀ (reply : Reply) (id : ProbeId),
      (tcpReplies pnet tcp.target tcp.source).identify reply = some id ↔
        (∃ socket, reply.source = some (.inet socket) ∧ socket.ip = tcp.target) ∧
        20 ≤ (carriedSegment pnet.cut tcp.target reply.quoted).length ∧
        Bytes.beValue ((carriedSegment pnet.cut tcp.target reply.quoted).field 0 2) = 80 ∧
        Bytes.beValue ((carriedSegment pnet.cut tcp.target reply.quoted).field 2 2) =
          tcp.source.port.toNat ∧
        Bytes.beValue ((carriedSegment pnet.cut tcp.target reply.quoted).field 8 4) =
          Bytes.beValue ((tcp.probe pnet timestamp id).1.field 4 4) + 1) ∧
    (∀ reply : Reply,
      Bytes.beValue ((carriedSegment pnet.cut tcp.target reply.quoted).field 8 4) = 0 ∨
        65536 < Bytes.beValue ((carriedSegment pnet.cut tcp.target reply.quoted).field 8 4) →
      (tcpReplies pnet tcp.target tcp.source).identify reply = none) ∧
    ∀ id : ProbeId, ∃ reply : Reply,
      Bytes.beValue ((carriedSegment pnet.cut tcp.target reply.quoted).field 8 4) =
          id.id.toNat + 1 ∧
        (tcpReplies pnet tcp.target tcp.source).identify reply = some id := by
  have hsequence (id : ProbeId) :
      Bytes.beValue ((tcp.probe pnet timestamp id).1.field 4 4) = id.id.toNat := by
    have hid : id.id.toNat < 2 ^ 16 := id.id.toNat_lt
    rw [probe_sequence, Bytes.beValue_beBytes 4 _ (by omega)]
  refine ⟨?_, ?_, ?_⟩
  · intro reply id
    rw [hsequence]
    exact identify_eq_some_iff
  · intro reply hack
    apply Option.eq_none_iff_forall_ne_some.mpr
    intro id h
    have hid : id.id.toNat < 2 ^ 16 := id.id.toNat_lt
    obtain ⟨_, _, _, _, hacknowledges⟩ := identify_eq_some_iff.mp h
    omega
  · intro id
    exact ⟨answerTo tcp id, answerTo_acknowledges pnet.cut tcp id, answerTo_identified pnet tcp id⟩

end Answered

section Quoted

variable {pnet : Pnet} {tcp : Tcp} {id : ProbeId}

theorem identifyFromError_eq_some_iff {port : UInt16} :
    identifyFromError reply port = some id ↔
      8 ≤ reply.quoted.length ∧ Bytes.beValue (reply.quoted.field 0 2) = port.toNat ∧
        Bytes.beValue (reply.quoted.field 4 4) = id.id.toNat := by
  have hlt := Bytes.beValue_field_lt reply.quoted 0 2
  constructor
  · intro h
    simp only [identifyFromError, Option.bind_eq_bind] at h
    obtain ⟨first, hfirst, h⟩ := Option.bind_eq_some_iff.mp h
    have htwo := @Bytes.slice?_field reply.quoted 0 2 (Bytes.le_length_of_slice? hfirst)
    rw [Nat.zero_add, hfirst, Option.some_inj] at htwo
    subst htwo
    split at h
    · cases h
    · rename_i hport
      obtain ⟨second, hsecond, h⟩ := Option.bind_eq_some_iff.mp h
      have hlen := Bytes.le_length_of_slice? hsecond
      have hfour := @Bytes.slice?_field reply.quoted 4 4 hlen
      rw [hsecond, Option.some_inj] at hfour
      subst hfour
      split at h
      · rename_i hsmall
        refine ⟨hlen, ?_, ?_⟩
        · rw [← not_not.mp hport, UInt16.toNat_ofNat_of_lt' hlt]
        · cases h
          exact (UInt16.toNat_ofNat_of_lt' hsmall).symm
      · cases h
  · rintro ⟨hlen, hport, hsequence⟩
    have hfirst := @Bytes.slice?_field reply.quoted 0 2 (by omega)
    have hsecond := @Bytes.slice?_field reply.quoted 4 4 hlen
    have hid : id.id.toNat < 2 ^ 16 := id.id.toNat_lt
    rw [Nat.zero_add] at hfirst
    simp only [identifyFromError, hfirst, hsecond, hport, hsequence, Option.bind_eq_bind,
      Option.bind_some, UInt16.ofNat_toNat, ne_eq, not_true_eq_false, if_false, if_pos hid]
    rfl

theorem take_eq_probe_iff {quoted : Bytes} (hlen : 8 ≤ quoted.length) :
    quoted.take 8 = (tcp.probe pnet timestamp id).1.take 8 ↔
      Bytes.beValue (quoted.field 0 2) = tcp.source.port.toNat ∧
      Bytes.beValue (quoted.field 2 2) = destPort.toNat ∧
        Bytes.beValue (quoted.field 4 4) = id.id.toNat := by
  have hid : id.id.toNat < 2 ^ 16 := id.id.toNat_lt
  have hfield (offset width : Nat) (ho : offset + width ≤ 8) :
      (quoted.field offset width).length = width := Bytes.length_field (by omega)
  have hsplit : quoted.take 8 = quoted.field 0 2 ++ (quoted.field 2 2 ++ quoted.field 4 4) := by
    have hfour : quoted.take 4 = quoted.field 0 2 ++ quoted.field 2 2 :=
      @List.take_add _ quoted 2 2
    have height : quoted.take 8 = quoted.take 4 ++ quoted.field 4 4 := @List.take_add _ quoted 4 4
    rw [height, hfour, List.append_assoc]
  rw [hsplit, probe_take, Bytes.beValue_eq_iff (hfield 0 2 (by omega)) tcp.source.port.toNat_lt,
    Bytes.beValue_eq_iff (hfield 2 2 (by omega)) destPort.toNat_lt,
    Bytes.beValue_eq_iff (hfield 4 4 (by omega)) (by omega)]
  constructor
  · intro h
    obtain ⟨hport, h⟩ := List.append_inj h (by rw [hfield 0 2 (by omega), Bytes.length_beBytes])
    exact ⟨hport, List.append_inj h (by rw [hfield 2 2 (by omega), Bytes.length_beBytes])⟩
  · rintro ⟨hport, hdestination, hsequence⟩
    rw [hport, hdestination, hsequence]

/-- The error queue is exact on a quote unless it is of a segment from the trace's port to another
than the probed one, with a sequence number that a probe could have. It never takes a quote of
another trace's probe for one of its own. -/
theorem quotes_identified_iff (pnet : Pnet) (tcp : Tcp) (timestamp : UInt32) (reply : Reply) :
    ((∀ id, identifyFromError reply tcp.source.port = some id ↔
        8 ≤ reply.quoted.length ∧
          reply.quoted.take 8 = (tcp.probe pnet timestamp id).1.take 8) ∧
      (Bytes.beValue (reply.quoted.field 2 2) ≠ destPort.toNat →
        identifyFromError reply tcp.source.port = none) ↔
      ¬ (8 ≤ reply.quoted.length ∧
        Bytes.beValue (reply.quoted.field 0 2) = tcp.source.port.toNat ∧
        Bytes.beValue (reply.quoted.field 2 2) ≠ destPort.toNat ∧
        Bytes.beValue (reply.quoted.field 4 4) < 2 ^ 16)) ∧
    ∀ (other : Tcp) (id : ProbeId), other.source.port ≠ tcp.source.port →
      reply.quoted.take 8 = (other.probe pnet timestamp id).1.take 8 →
        identifyFromError reply tcp.source.port = none := by
  constructor
  · constructor
    · rintro ⟨_, hother⟩ ⟨hlen, hport, hdestination, hsequence⟩
      have hid : identifyFromError reply tcp.source.port =
          some ⟨UInt16.ofNat (Bytes.beValue (reply.quoted.field 4 4))⟩ :=
        identifyFromError_eq_some_iff.mpr
          ⟨hlen, hport, (UInt16.toNat_ofNat_of_lt' hsequence).symm⟩
      rw [hother hdestination] at hid
      cases hid
    · intro hexact
      have hdestination {id : ProbeId} (h : identifyFromError reply tcp.source.port = some id) :
          Bytes.beValue (reply.quoted.field 2 2) = destPort.toNat := by
        obtain ⟨hlen, hport, hsequence⟩ := identifyFromError_eq_some_iff.mp h
        by_contra hne
        exact hexact ⟨hlen, hport, hne, hsequence ▸ id.id.toNat_lt⟩
      constructor
      · intro id
        constructor
        · intro h
          obtain ⟨hlen, hport, hsequence⟩ := identifyFromError_eq_some_iff.mp h
          exact ⟨hlen, (take_eq_probe_iff hlen).mpr ⟨hport, hdestination h, hsequence⟩⟩
        · rintro ⟨hlen, htake⟩
          obtain ⟨hport, _, hsequence⟩ := (take_eq_probe_iff hlen).mp htake
          exact identifyFromError_eq_some_iff.mpr ⟨hlen, hport, hsequence⟩
      · intro hne
        apply Option.eq_none_iff_forall_ne_some.mpr
        intro id h
        exact hne (hdestination h)
  · intro other id hne htake
    apply Option.eq_none_iff_forall_ne_some.mpr
    intro id' h
    obtain ⟨hlen, hport, _⟩ := identifyFromError_eq_some_iff.mp h
    have hother := ((take_eq_probe_iff hlen).mp htake).1
    exact hne (UInt16.toNat_inj.mp (hother.symm.trans hport))

/-- An error about a segment from the trace's port to port 443 is credited to a probe. -/
theorem foreign_port_identified :
    let tcp : Tcp := ⟨.v4 .localhost, .v4 ⟨.localhost, 40000⟩, rfl⟩
    let reply : Reply := ⟨none, none, [156, 64, 1, 187, 0, 0, 0, 7], none⟩
    identifyFromError reply tcp.source.port = some ⟨7⟩ ∧
      Bytes.beValue (reply.quoted.field 2 2) = 443 ∧
      reply.quoted.take 8 ≠ (tcp.probe Pnet.layout 0 ⟨7⟩).1.take 8 := by
  decide

end Quoted

end Tcp

end Ringroute
