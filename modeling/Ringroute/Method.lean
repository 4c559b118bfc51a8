import Ringroute.Net

namespace Ringroute
open Library
set_option autoImplicit true

/-- Identifies one probe in flight. -/
structure ProbeId where
  id : UInt16
  deriving DecidableEq, Repr

def ProbeId.index (probe : ProbeId) : Nat := probe.id.toNat

/-- A response read from one of our queues. -/
structure Reply where
  source : Option SockAddr
  /-- Where the dropped datagram was sent, on the error queue only. -/
  destination : Option SockAddr
  /-- Either the reply or the datagram an intermediate node quoted back. -/
  quoted : Bytes
  error : Option IcmpError
  deriving DecidableEq, Repr

/-- Interprets the replies arriving on one queue. -/
structure Replies where
  identify : Reply → Option ProbeId
  classify : Reply → ReplyKind
  ignoresReadError : Int → Bool := fun _ => false

/-- Interprets the replies arriving on a socket error queue. -/
def errorReplies (identify : Reply → Option ProbeId) : Replies where
  identify := identify
  classify reply :=
    match reply.error with
    | none => .unreachable (.marker "!?")
    | some error => error.kind

/-- One queue the trace reads from. -/
structure ReplyQueue where
  /-- Read the socket's error queue rather than its receive queue. -/
  errQueue : Bool
  replies : Replies

/-- Describes a probing method. Each one opens the receive queue and the error queue of a socket. -/
structure Method where
  queues : List ReplyQueue
  queues_length : queues.length = 2
  /-- The datagram to send for a probe, and where to send it. -/
  probe : ProbeId → Bytes × SockAddr
  /-- The largest reply this method can receive including the protocol's headers. -/
  maxReplyLen : Nat

def ehostunreach : Int := 113

end Ringroute
