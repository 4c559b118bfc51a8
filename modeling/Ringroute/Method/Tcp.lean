import Ringroute.Method

namespace Ringroute
open Library
set_option autoImplicit true

def tcpMinHeaderLen : Nat := 20
def tcpSynOptionsLen : Nat := 20
def destPort : UInt16 := 80

/-- The getters of a `TcpPacket` that replies are identified by. -/
structure TcpPacket where
  source : UInt16
  destination : UInt16
  acknowledgement : UInt32
  deriving DecidableEq, Repr

inductive TcpOption where
  | mss (value : UInt16)
  | sackPerm
  | timestamp (mine theirs : UInt32)
  | nop
  | wscale (value : UInt8)
  deriving DecidableEq, Repr

/-- What the setters of a `MutableTcpPacket` are given. The checksum is the packet library's, over
the addresses and the other fields. -/
structure TcpFields where
  source : UInt16
  destination : UInt16
  sequence : UInt32
  flags : UInt8
  dataOffset : UInt8
  options : List TcpOption
  checksumOf : IpAddr × IpAddr
  deriving DecidableEq, Repr

/-- The length of an IPv4 header, which its IHL counts in words. -/
def ipv4HeaderLen (packet : Bytes) : Nat := max ((packet.getD 0 0).toNat % 16) 5 * 4

/-- Where the payload of an IPv4 packet ends, if the buffer does not end before. The two differ for
an IHL too small for a header only. -/
inductive Ipv4Cut where
  /-- At the total length. -/
  | totalLength
  /-- As far behind the header as the total length is behind the IHL, which is what the library
  has. -/
  | payloadLength
  deriving DecidableEq, Repr

def Ipv4Cut.stop (cut : Ipv4Cut) (packet : Bytes) : Nat :=
  let total := Bytes.beValue (packet.field 2 2)
  match cut with
  | .totalLength => total
  | .payloadLength => ipv4HeaderLen packet + (total - (packet.getD 0 0).toNat % 16 * 4)

/-- The packet library, with what `tcp.rs` relies on: both views need twenty bytes, an IPv4
payload starts behind the header and ends where it is cut, and the header fields of a TCP segment
are big-endian at their offsets. -/
structure Pnet where
  cut : Ipv4Cut
  /-- `Ipv4Packet::new`, then `payload`. -/
  ipv4Payload : Bytes → Option Bytes
  /-- `TcpPacket::new`. -/
  tcpPacket : Bytes → Option TcpPacket
  /-- A zeroed buffer of the given length after every setter of a `MutableTcpPacket` has run. -/
  tcpBuffer : Nat → TcpFields → Bytes
  ipv4Payload_eq : ∀ bs, ipv4Payload bs =
    if bs.length < 20 then none
    else some ((bs.take (cut.stop bs)).drop (ipv4HeaderLen bs))
  tcpPacket_eq : ∀ bs, tcpPacket bs =
    if bs.length < 20 then none
    else some
      { source := UInt16.ofNat (Bytes.beValue (bs.field 0 2))
        destination := UInt16.ofNat (Bytes.beValue (bs.field 2 2))
        acknowledgement := UInt32.ofNat (Bytes.beValue (bs.field 8 4)) }
  length_tcpBuffer : ∀ n fields, (tcpBuffer n fields).length = n
  tcpBuffer_take : ∀ n fields, 20 ≤ n → (tcpBuffer n fields).take 8 =
    Bytes.beBytes 2 fields.source.toNat ++ Bytes.beBytes 2 fields.destination.toNat ++
      Bytes.beBytes 4 fields.sequence.toNat

def TcpOption.bytes : TcpOption → Bytes
  | .mss value => [2, 4] ++ Bytes.beBytes 2 value.toNat
  | .sackPerm => [4, 2]
  | .timestamp mine theirs => [8, 10] ++ Bytes.beBytes 4 mine.toNat ++ Bytes.beBytes 4 theirs.toNat
  | .nop => [1]
  | .wscale value => [3, 3, value]

/-- The pseudo header that the checksum of a segment covers. -/
def pseudoHeader (addresses : IpAddr × IpAddr) (length : Nat) : Bytes :=
  match addresses with
  | (.v4 source, .v4 target) =>
    source.octets.toList ++ target.octets.toList ++ [0, 6] ++ Bytes.beBytes 2 length
  | (.v6 source, .v6 target) =>
    source.octets.toList ++ target.octets.toList ++ Bytes.beBytes 4 length ++ [0, 0, 0, 6]
  | _ => []

/-- The ones' complement of the ones' complement sum of the 16-bit words. -/
def internetChecksum (bs : Bytes) : Nat :=
  let sum := wordSum bs
  2 ^ 16 - 1 - if sum = 0 then 0 else (sum - 1) % (2 ^ 16 - 1) + 1
where
  wordSum : Bytes → Nat
    | [] => 0
    | [high] => high.toNat * 256
    | high :: low :: rest => high.toNat * 256 + low.toNat + wordSum rest

namespace TcpFields

/-- The fields a segment starts with, no acknowledgement among them. -/
def start (fields : TcpFields) : Bytes :=
  Bytes.beBytes 2 fields.source.toNat ++ Bytes.beBytes 2 fields.destination.toNat ++
    Bytes.beBytes 4 fields.sequence.toNat

/-- The rest of a header with the given checksum, in a zeroed buffer of the given length. -/
def rest (fields : TcpFields) (n checksum : Nat) : Bytes :=
  let set := Bytes.beBytes 4 0 ++ [fields.dataOffset * 16, fields.flags] ++ Bytes.beBytes 2 0 ++
    Bytes.beBytes 2 checksum ++ Bytes.beBytes 2 0 ++ fields.options.flatMap TcpOption.bytes
  (set ++ List.replicate n 0).take (n - 8)

end TcpFields

/-- The layouts themselves as a packet library with the given cut. -/
def Pnet.cutting (cut : Ipv4Cut) : Pnet where
  cut := cut
  ipv4Payload bs :=
    if bs.length < 20 then none
    else some ((bs.take (cut.stop bs)).drop (ipv4HeaderLen bs))
  tcpPacket bs :=
    if bs.length < 20 then none
    else some
      { source := UInt16.ofNat (Bytes.beValue (bs.field 0 2))
        destination := UInt16.ofNat (Bytes.beValue (bs.field 2 2))
        acknowledgement := UInt32.ofNat (Bytes.beValue (bs.field 8 4)) }
  tcpBuffer n fields :=
    let checksum := internetChecksum
      (pseudoHeader fields.checksumOf n ++ (fields.start ++ fields.rest n 0))
    (fields.start ++ fields.rest n checksum).take n
  ipv4Payload_eq _ := rfl
  tcpPacket_eq _ := rfl
  length_tcpBuffer n fields := by
    simp only [TcpFields.start, TcpFields.rest, List.length_take, List.length_append,
      Bytes.length_beBytes, List.length_replicate]
    omega
  tcpBuffer_take n fields hn := by
    have hstart : fields.start.length = 8 := by
      simp only [TcpFields.start, List.length_append, Bytes.length_beBytes]
    rw [List.take_take, Nat.min_eq_left (by omega), ← hstart, List.take_left]
    rfl

def Pnet.layout : Pnet := .cutting .payloadLength

def IpAddr.isIpv4 : IpAddr → Bool
  | .v4 _ => true
  | .v6 _ => false

/-- The source address is the one the route lookup to the target chose, so it is of its family. -/
structure Tcp where
  target : IpAddr
  source : SocketAddr
  same_family : source.ip.isIpv4 = target.isIpv4

/-- What the system answers while a TCP method is set up and its probes are built: the port a
stream socket is bound to, the local address of a datagram socket connected to the target, which is
of the target's family, and the milliseconds of the clock. -/
structure TcpSystem where
  localPort : IpAddr → Except String UInt16
  localIp : (target : IpAddr) → Except String { ip : IpAddr // ip.isIpv4 = target.isIpv4 }
  clock : ProbeId → UInt32

namespace Tcp

def tryNew (system : TcpSystem) (target : IpAddr) : Except String Tcp := do
  let sourcePort ← system.localPort target
  let sourceIp ← system.localIp target
  return {
    target := target
    source := SocketAddr.new sourceIp.1 sourcePort
    same_family := by
      rw [SocketAddr.new_ip]
      exact sourceIp.2 }

variable (pnet : Pnet)

/-- Interprets the segments of the raw socket's receive queue. -/
def tcpReplies (target : IpAddr) (source : SocketAddr) : Replies where
  identify reply := do
    let from_ ← (← reply.source).asSocket
    if from_.ip ≠ target then none
    else
      let tcpPayload ← match target with
        | .v4 _ => pnet.ipv4Payload reply.quoted
        | .v6 _ => some reply.quoted
      let tcpPacket ← pnet.tcpPacket tcpPayload
      -- The source address for raw sockets will always be port 0, so the ports are matched here.
      if (tcpPacket.source, tcpPacket.destination) ≠ (destPort, source.port) then none
      else if tcpPacket.acknowledgement = 0 then none
      else
        let sequence := tcpPacket.acknowledgement - 1
        if sequence.toNat < 2 ^ 16 then return ⟨sequence.toUInt16⟩ else none
  classify _ := .destination
  ignoresReadError error := error == -ehostunreach

/-- Only the first 8 bytes of the segment are sure to be quoted. -/
def identifyFromError (reply : Reply) (wantSourcePort : UInt16) : Option ProbeId := do
  let sourcePort := UInt16.ofNat (Bytes.beValue (← reply.quoted.slice? 0 2))
  if sourcePort ≠ wantSourcePort then none
  else
    let sequence := Bytes.beValue (← reply.quoted.slice? 4 8)
    if sequence < 2 ^ 16 then return ⟨UInt16.ofNat sequence⟩ else none

def queues (tcp : Tcp) : List ReplyQueue :=
  [{ errQueue := false, replies := tcpReplies pnet tcp.target tcp.source },
    { errQueue := true
      replies := errorReplies fun reply => identifyFromError reply tcp.source.port }]

def synFlag : UInt8 := 2

/-- The probe sent when the clock's milliseconds are `timestamp`. -/
def probe (tcp : Tcp) (timestamp : UInt32) (id : ProbeId) : Bytes × SockAddr :=
  let totalLen := tcpMinHeaderLen + tcpSynOptionsLen
  let mss := match tcp.target with
    | .v4 _ => 1460
    | .v6 _ => 1440
  (pnet.tcpBuffer totalLen
      { source := tcp.source.port
        destination := destPort
        sequence := id.id.toUInt32
        flags := synFlag
        dataOffset := UInt8.ofNat totalLen / 4
        options := [.mss mss, .sackPerm, .timestamp timestamp 0, .nop, .wscale 7]
        checksumOf := (tcp.source.ip, tcp.target) },
    .inet (SocketAddr.new tcp.target destPort))

/-- A raw socket also sees the IPv4 header of normal reads. -/
def maxReplyLen (tcp : Tcp) : Nat :=
  (match tcp.target with
    | .v4 _ => minIpv4HeaderLen
    | .v6 _ => 0) + tcpMinHeaderLen

def method (tcp : Tcp) (clock : ProbeId → UInt32) : Method where
  queues := tcp.queues pnet
  queues_length := rfl
  probe id := tcp.probe pnet (clock id) id
  maxReplyLen := tcp.maxReplyLen

end Tcp

end Ringroute
