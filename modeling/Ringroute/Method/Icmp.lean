import Ringroute.Method

namespace Ringroute
open Library
set_option autoImplicit true

def echoHeaderLen : Nat := 8

/-- The sequence number, which sits at the same offset in an echo reply as in the request a router
quotes back. -/
def sequence (reply : Reply) : Option ProbeId := do
  let sequence ← reply.quoted.slice? 6 8
  return ⟨UInt16.ofNat (Bytes.beValue sequence)⟩

def echoReplies : Replies where
  identify := sequence
  -- Only the target answers an echo request.
  classify _ := .destination
  ignoresReadError error := error == -ehostunreach

structure Icmp where
  target : IpAddr
  payloadLen : Nat
  deriving DecidableEq, Repr

namespace Icmp

def minPacketLen (target : IpAddr) : Nat :=
  (match target with
    | .v4 _ => minIpv4HeaderLen
    | .v6 _ => ipv6HeaderLength) + echoHeaderLen

def tryNew (target : IpAddr) (packetLen : Nat) : Except String Icmp :=
  if minPacketLen target ≤ packetLen then
    .ok { target := target, payloadLen := packetLen - minPacketLen target }
  else
    .error ("packet size must be at least " ++ toString (minPacketLen target) ++
      " bytes for method icmp")

def queues : List ReplyQueue :=
  [{ errQueue := false, replies := echoReplies },
    { errQueue := true, replies := errorReplies sequence }]

/-- The kernel fills in the checksum (bytes 2 and 3) and the identifier (bytes 4 and 5). -/
def probe (icmp : Icmp) (id : ProbeId) : Bytes × SockAddr :=
  let packet := List.replicate (echoHeaderLen + icmp.payloadLen) 0
  let packet := packet.set 0 (match icmp.target with
    | .v4 _ => V4.echoRequest
    | .v6 _ => V6.echoRequest)
  (Bytes.overwrite packet 6 (Bytes.beBytes 2 id.id.toNat),
    .inet (SocketAddr.new icmp.target 0))

/-- An echo reply echoes our payload back with the same header length. -/
def maxReplyLen (icmp : Icmp) : Nat := echoHeaderLen + icmp.payloadLen

def method (icmp : Icmp) : Method where
  queues := queues
  queues_length := rfl
  probe := icmp.probe
  maxReplyLen := icmp.maxReplyLen

end Icmp

end Ringroute
