import Ringroute.Library.SubmissionRing
import Ringroute.Library.Slab
import Ringroute.Method
import Ringroute.Trace.RecvMsg
import Ringroute.Trace.UserData

namespace Ringroute
open Library
set_option autoImplicit true

/-- Nanoseconds of the monotonic clock. -/
abbrev Instant := Nat
abbrev Duration := Nat

/-- The maximum space needed for the address a reply came from. -/
def nameLen : Nat := sizeOfSockaddrIn6

def recvmsgOverhead (host : Host) : Nat := sizeOfRecvmsgOut + nameLen + recverrControlLen host

structure ProbeResult where
  source : Option IpAddr
  rtt : Duration
  kind : ReplyKind
  deriving DecidableEq, Repr

structure Probe where
  ttl : UInt8
  sentAt : Option Instant
  result : Option ProbeResult
  deriving DecidableEq, Repr

structure HopLimitControl where
  header : Cmsghdr
  hopLimit : Int32
  deriving DecidableEq, Repr

def ipTtl : Int32 := 2
def ipv6HopLimit : Int32 := 52

def HopLimitControl.new (host : Host) (isIpv6 : Bool) (hopLimit : UInt8) : HopLimitControl :=
  let (level, option) := if isIpv6 then (ipprotoIpv6, ipv6HopLimit) else (ipprotoIp, ipTtl)
  { header :=
      { cmsgLen := cmsgHeaderLen host + 4
        cmsgLevel := level
        cmsgType := option }
    hopLimit := Int32.ofNat hopLimit.toNat }

/-- `size_of::<HopLimitControl>()`. -/
def sizeOfHopLimitControl (host : Host) : Nat := host.align (host.sizeOfCmsghdr + 4)

/-- A probe's send buffers, which must outlive the send completion. -/
structure Outgoing where
  packet : Bytes
  destination : SockAddr
  iovLen : Nat
  control : HopLimitControl
  msg : Msghdr
  probe : ProbeId
  deriving DecidableEq, Repr

def Outgoing.new (host : Host) (packet : Bytes) (destination : SockAddr) (ttl : UInt8)
    (probe : ProbeId) : Outgoing where
  packet := packet
  destination := destination
  iovLen := packet.length
  control := HopLimitControl.new host destination.isIpv6 ttl
  msg := { msgNamelen := destination.len, msgControllen := sizeOfHopLimitControl host }
  probe := probe

/-- A multishot read kept outstanding for the whole trace. -/
structure Multishot where
  queue : ReplyQueue
  slot : UInt16
  msghdr : Msghdr

inductive Opcode where
  | sendMsg (msg : Outgoing)
  | recvMsgMulti (reader : Multishot) (flags : UInt32)
  | timeout (after : Duration)

structure Sqe where
  opcode : Opcode
  userData : UserData

def msgErrqueue : UInt32 := 0x2000

namespace Multishot

/-- The reader of a queue on which `enable_recverr` has gone through. -/
def tryNew (host : Host) (queue : ReplyQueue) (slot : UInt16) : Multishot where
  queue := queue
  slot := slot
  msghdr :=
    { msgNamelen := nameLen
      msgControllen := if queue.errQueue then recverrControlLen host else 0 }

def entry (reader : Multishot) : Sqe where
  opcode := .recvMsgMulti reader (if reader.queue.errQueue then msgErrqueue else 0)
  userData := (UserData.new.withSlot reader.slot).withState .read

/-- Schedule a multishot `recvmsg` request. -/
def schedule (reader : Multishot) (sq : SubmissionRing Sqe) : Option (SubmissionRing Sqe) :=
  sq.push reader.entry

end Multishot

def writeEntry (slot : Nat) (outgoing : Outgoing) : Sqe where
  opcode := .sendMsg outgoing
  userData := (UserData.new.withSlot (UInt16.ofNat slot)).withState .write

def timeoutEntry (timeout : Duration) : Sqe where
  opcode := .timeout timeout
  userData := UserData.new.withState .timeout

/-- Schedule a probe to be written and record the outgoing probe details in `sending`. -/
def scheduleWrite (host : Host) (slab : SlabApi Outgoing) (sending : slab.Slab) (method : Method)
    (id : ProbeId) (ttl : UInt8) (sq : SubmissionRing Sqe) :
    slab.Slab × Option (SubmissionRing Sqe) :=
  let (packet, destination) := method.probe id
  let outgoing := Outgoing.new host packet destination ttl id
  let (slot, sending) := slab.insert sending outgoing
  match sq.push (writeEntry slot outgoing) with
  | some sq => (sending, some sq)
  | none =>
    match slab.remove sending slot with
    | some (_, sending) => (sending, none)
    | none => (sending, none)

end Ringroute
