import Ringroute.Method

namespace Ringroute
open Library
set_option autoImplicit true

def udpHeaderLen : Nat := 8
def startPort : UInt16 := 33434

/-- `u16::checked_sub`. -/
def checkedSub (a b : UInt16) : Option UInt16 := if b ≤ a then some (a - b) else none

/-- `u16::overflowing_add`. -/
def overflowingAdd (a b : UInt16) : UInt16 × Bool := (a + b, 2 ^ 16 ≤ a.toNat + b.toNat)

structure Udp where
  target : IpAddr
  payloadLen : Nat
  deriving DecidableEq, Repr

namespace Udp

/-- Interprets the datagrams of the socket's receive queue. -/
def udpReplies (target : IpAddr) : Replies where
  identify reply := do
    let source ← (← reply.source).asSocket
    if source.ip ≠ target then none
    else return ⟨← checkedSub source.port startPort⟩
  classify _ := .destination
  ignoresReadError error := error == -ehostunreach

/-- The port must be read from the name because `quoted` only includes the quoted UDP payload and
not its header. -/
def identifyFromError (reply : Reply) : Option ProbeId := do
  let port := (← (← reply.destination).asSocket).port
  (checkedSub port startPort).map ProbeId.mk

def minPacketLen (target : IpAddr) : Nat :=
  (match target with
    | .v4 _ => minIpv4HeaderLen
    | .v6 _ => ipv6HeaderLength) + udpHeaderLen

def tryNew (target : IpAddr) (packetLen : Nat) : Except String Udp :=
  if minPacketLen target ≤ packetLen then
    .ok { target := target, payloadLen := packetLen - minPacketLen target }
  else
    .error ("packet size must be at least " ++ toString (minPacketLen target) ++
      " bytes for method udp")

def queues (udp : Udp) : List ReplyQueue :=
  [{ errQueue := false, replies := udpReplies udp.target },
    { errQueue := true, replies := errorReplies identifyFromError }]

def probe (udp : Udp) (id : ProbeId) : Bytes × SockAddr :=
  let packet := List.replicate udp.payloadLen 0
  let (port, overflowed) := overflowingAdd startPort id.id
  let port := if overflowed then port + 1 else port
  (packet, .inet (SocketAddr.new udp.target port))

def maxReplyLen (udp : Udp) : Nat := udp.payloadLen

def method (udp : Udp) : Method where
  queues := udp.queues
  queues_length := rfl
  probe := udp.probe
  maxReplyLen := udp.maxReplyLen

end Udp

end Ringroute
