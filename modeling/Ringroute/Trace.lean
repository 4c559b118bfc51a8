import Mathlib.Data.List.SplitBy
import Ringroute.Trace.Requests

namespace Ringroute
open Library
set_option autoImplicit true

structure Cqe where
  result : Int
  userData : UserData
  /-- Whether `IORING_CQE_F_MORE` is set. -/
  more : Bool
  /-- The selected buffer, if `IORING_CQE_F_BUFFER` is set. -/
  bufferId : Option UInt16
  deriving DecidableEq, Repr

/-- A completion as the loop comes to process it. -/
structure Event where
  cqe : Cqe
  /-- `get_buf` of the buffer ring. -/
  getBuf : UInt16 → Nat → Option Bytes
  now : Instant

/-- The places at which the loop would panic. -/
inductive PanicSite where
  | unexpectedState
  | invalidKey
  | readerIndex
  | probeIndex
  | noBufferId
  | emptyRead
  | noBuffer
  | parsingMsghdr
  | controlWalk (fault : Fault)
  | notASocketAddress
  deriving DecidableEq, Repr

def expect (site : PanicSite) : Option α → Except PanicSite α
  | some a => .ok a
  | none => .error site

section Reading

variable {host : Host} (uring : RecvMsgOutApi host)

/-- The part of `handle_read` that finds the message in the buffer. -/
def fetch (reader : Multishot) (event : Event) : Except PanicSite RecvMsgOut := do
  let bufferId ← expect .noBufferId event.cqe.bufferId
  let len := event.cqe.result.toNat
  if len = 0 then throw .emptyRead
  let buffer ← expect .noBuffer (event.getBuf bufferId len)
  expect .parsingMsghdr (uring.parse buffer reader.msghdr)

/-- The part of `handle_read` that makes a reply of the message; `none` is an early return. -/
def Multishot.reply (host : Host) (reader : Multishot) (message : RecvMsgOut) :
    Except PanicSite (Option Reply) :=
  if reader.queue.errQueue then
    if message.isControlDataTruncated then .ok none
    else
      match parseIpRecverr host message.controlData with
      | .error fault => .error (.controlWalk fault)
      | .ok none => .ok none
      | .ok (some extended) =>
        .ok (some
          { source := parseSockaddr host extended.sourceBytes
            destination := parseSockaddr host message.nameData
            quoted := message.payloadData
            error := some extended.error })
  else
    .ok (some
      { source := parseSockaddr host message.nameData
        destination := none
        quoted := message.payloadData
        error := none })

def receive (reader : Multishot) (event : Event) : Except PanicSite (Option Reply) := do
  reader.reply host (← fetch uring reader event)

/-- The address a result is reported under. -/
def Reply.sourceIp (reply : Reply) : Except PanicSite (Option IpAddr) :=
  match reply.source with
  | none => .ok none
  | some addr => (expect .notASocketAddress addr.asSocket).map fun socket => some socket.ip

/-- The part of `handle_read` that records a reply for the probe it answers. -/
def record (reader : Multishot) (reply : Reply) (now : Instant) (probes : List Probe) :
    Except PanicSite (List Probe) :=
  match reader.queue.replies.identify reply with
  | none => .ok probes
  | some id =>
    match probes[id.index]? with
    | none => .ok probes
    | some probe =>
      if probe.result.isSome then .ok probes
      else
        match probe.sentAt with
        | none => .ok probes
        | some sentAt => do
          let source ← reply.sourceIp
          return probes.set id.index
            { probe with
              result := some
                { source := source
                  rtt := now - sentAt
                  kind := reader.queue.replies.classify reply } }

/-- Given a completion representing a successful receive, process the response. -/
def handleRead (reader : Multishot) (event : Event) (probes : List Probe) :
    Except PanicSite (List Probe) := do
  match ← receive uring reader event with
  | none => return probes
  | some reply => record reader reply event.now probes

end Reading

/-- Everything the completion loop changes. -/
structure RunState (slab : SlabApi Outgoing) where
  sq : SubmissionRing Sqe
  sending : slab.Slab
  probes : List Probe

/-- How `run` ends. -/
inductive Exit where
  | ok (probes : List Probe)
  | openError (errno : Option Int)
  | submitError (errno : Option Int)
  | pushError
  | tryFromIntError
  | overflow
  | panic (site : PanicSite)
  deriving DecidableEq, Repr

/-- The way `run` ended, and the state it ended in. -/
structure Returned (slab : SlabApi Outgoing) where
  exit : Exit
  state : RunState slab

/-- The groups of `chunk_by` on the ttl. -/
def hopsOf (probes : List Probe) : List (List Probe) :=
  probes.splitBy fun a b => a.ttl == b.ttl

def Probe.answered (probe : Probe) : Bool := probe.result.isSome

def terminates (probes : List Probe) : Bool :=
  (probes.filterMap Probe.result).any fun result => result.kind.terminatesTrace

/-- Whether the leading answered hops hold a result that ends the trace. -/
def reachedTarget (probes : List Probe) : Bool :=
  terminates ((hopsOf probes).takeWhile fun hop => hop.any Probe.answered).flatten

def etime : Int := 62

section Loop

variable {host : Host} (uring : RecvMsgOutApi host) {slab : SlabApi Outgoing}
  (readers : List Multishot)

/-- What a write completion does once its slab entry is taken out. -/
def completeWrite (st : RunState slab) (event : Event) (outgoing : Outgoing) :
    Except (Returned slab) (RunState slab × Bool) :=
  if event.cqe.result ≥ 0 then
    match st.probes[outgoing.probe.index]? with
    | none => .error ⟨.panic .probeIndex, st⟩
    | some probe =>
      .ok ({ st with
        probes := st.probes.set outgoing.probe.index
          { probe with sentAt := some event.now } }, false)
  else .ok (st, true)

/-- The probes after a read completion: a successful one has its reply handled. -/
def readProbes (probes : List Probe) (event : Event) (reader : Multishot) :
    Except PanicSite (List Probe) :=
  if event.cqe.result ≥ 0 then handleRead uring reader event probes else .ok probes

/-- What a read completion does once its reader is looked up. The reader is armed again after its
last completion. -/
def completeRead (st : RunState slab) (event : Event) (reader : Multishot) :
    Except (Returned slab) (RunState slab × Bool) :=
  match readProbes uring st.probes event reader with
  | .error site => .error ⟨.panic site, st⟩
  | .ok probes =>
    let st := { st with probes := probes }
    let failed := event.cqe.result < 0 && !reader.queue.replies.ignoresReadError event.cqe.result
    if event.cqe.more then .ok (st, failed)
    else
      match reader.schedule st.sq with
      | none => .error ⟨.pushError, st⟩
      | some sq => .ok ({ st with sq := sq }, failed)

/-- The match on the completion's state, with whether it is logged as a failure. -/
def dispatch (st : RunState slab) (event : Event) :
    State → Except (Returned slab) (RunState slab × Bool)
  | .timeout => .ok (st, event.cqe.result != -etime)
  | .write =>
    match slab.remove st.sending event.cqe.userData.slot.toNat with
    | none => .error ⟨.panic .invalidKey, st⟩
    | some (outgoing, sending) => completeWrite { st with sending := sending } event outgoing
  | .read =>
    match readers[event.cqe.userData.slot.toNat]? with
    | none => .error ⟨.panic .readerIndex, st⟩
    | some reader => completeRead uring st event reader

def RunState.done (st : RunState slab) (state : State) : Bool :=
  (slab.isEmpty st.sending && reachedTarget st.probes) || state == .timeout

/-- The end of the body of the loop, which returns the probes once the trace is done. -/
def finish (state : State) (result : RunState slab × Bool) :
    Except (Returned slab) (RunState slab × Bool) :=
  if result.1.done state then .error ⟨.ok result.1.probes, result.1⟩ else .ok result

/-- The body of the loop over a batch of completions. -/
def onCompletion (st : RunState slab) (event : Event) :
    Except (Returned slab) (RunState slab × Bool) :=
  match event.cqe.userData.state with
  | none => .error ⟨.panic .unexpectedState, st⟩
  | some state => (dispatch uring readers st event state).bind (finish state)

/-- The same without its end, which never finds the trace done. -/
def process (st : RunState slab) (event : Event) :
    Except (Returned slab) (RunState slab × Bool) :=
  match event.cqe.userData.state with
  | none => .error ⟨.panic .unexpectedState, st⟩
  | some state => dispatch uring readers st event state

end Loop

/-- What `run` finds as it sets up: whether its build checks the operators for overflow, and what
the system answers when it opens what the trace needs, an error with its number if it has one. -/
structure Environment where
  overflowChecks : Bool
  /-- `check_features_supported`. -/
  features : Except (Option Int) Unit
  /-- `Method::open`. -/
  sockets : Except (Option Int) Unit
  /-- `IoUring::new`. -/
  ring : Except (Option Int) Unit
  /-- `IoUringBufRing::new_with_flags`. -/
  bufRing : Except (Option Int) Unit
  /-- `Multishot::try_new` of all queues. -/
  readers : Except (Option Int) Unit

def opened (answer : Except (Option Int) Unit) : Except Exit Unit := answer.mapError .openError

section Sizing

/-- `u32::try_from`. -/
def u32TryFrom (n : Nat) : Except Exit UInt32 :=
  if n < 2 ^ 32 then .ok (UInt32.ofNat n) else .error .tryFromIntError

/-- `u16::try_from`. -/
def u16TryFrom (n : Nat) : Except Exit UInt16 :=
  if n < 2 ^ 16 then .ok (UInt16.ofNat n) else .error .tryFromIntError

/-- An operator whose result may pass the end of its type. A build that checks for it panics there,
any other goes on with the remainder. -/
def operator (overflowChecks fits : Bool) (result : α) : Except Exit α :=
  if overflowChecks && !fits then .error .overflow else .ok result

def u16Mul (overflowChecks : Bool) (a b : UInt16) : Except Exit UInt16 :=
  operator overflowChecks (a.toNat * b.toNat < 2 ^ 16) (a * b)

/-- The length of a buffer that replies are read into. -/
def bufferLen (overflowChecks : Bool) (host : Host) (method : Method) : Except Exit Nat :=
  let len := recvmsgOverhead host + method.maxReplyLen
  operator overflowChecks (len ≤ host.usizeMax) (len % (host.usizeMax + 1))

/-- One send per probe, one read per reader, plus our timeout. -/
def ringSize (method : Method) (probes : List Probe) : Nat :=
  method.queues.length + probes.length + 1

/-- What `run` asks of the rings. -/
structure Sizes where
  ringEntries : UInt32
  buffers : UInt16
  bufferLen : Nat
  deriving DecidableEq, Repr

/-- The part of `run` that opens the rings. There is one buffer per probe in theory, but more can be
required if buffers cannot be recycled before getting queued. -/
def sizes (env : Environment) (host : Host) (method : Method) (probes : List Probe) :
    Except Exit Sizes := do
  let ringEntries ← u32TryFrom (ringSize method probes)
  opened env.ring
  let buffers ← u16Mul env.overflowChecks 2 (← u16TryFrom probes.length)
  let bufferLen ← bufferLen env.overflowChecks host method
  opened env.bufRing
  return ⟨ringEntries, buffers, bufferLen⟩

end Sizing

section Setup

variable (host : Host) (slab : SlabApi Outgoing) (method : Method)

/-- `first..=last`. -/
def hopRange (first last : UInt8) : List UInt8 :=
  (List.range' first.toNat (last.toNat + 1 - first.toNat)).map UInt8.ofNat

def initialProbes (first last : UInt8) (count : UInt16) : List Probe :=
  ((hopRange first last).flatMap fun ttl => List.replicate count.toNat ttl).map fun ttl =>
    { ttl := ttl, sentAt := none, result := none }

def readersOf : List Multishot :=
  method.queues.zipIdx.map fun (queue, index) => Multishot.tryNew host queue (UInt16.ofNat index)

def scheduleReads (readers : List Multishot) (sq : SubmissionRing Sqe) :
    Option (SubmissionRing Sqe) :=
  match readers with
  | [] => some sq
  | reader :: readers => (reader.schedule sq).bind (scheduleReads readers)

def scheduleWrites : List (Probe × Nat) → slab.Slab → SubmissionRing Sqe →
    slab.Slab × Option (SubmissionRing Sqe)
  | [], sending, sq => (sending, some sq)
  | (probe, index) :: rest, sending, sq =>
    match scheduleWrite host slab sending method ⟨UInt16.ofNat index⟩ probe.ttl sq with
    | (sending, none) => (sending, none)
    | (sending, some sq) => scheduleWrites rest sending sq

/-- Schedule the reads, the writes and the timeout on a ring of a number of entries. -/
def scheduleAll (timeout : Duration) (probes : List Probe) (ringEntries : UInt32) :
    Except Exit (RunState slab) :=
  match scheduleReads (readersOf host method) (SubmissionRing.new ringEntries.toNat) with
  | none => .error .pushError
  | some sq =>
    match scheduleWrites host slab method probes.zipIdx slab.new sq with
    | (_, none) => .error .pushError
    | (sending, some sq) =>
      match sq.push (timeoutEntry timeout) with
      | none => .error .pushError
      | some sq => .ok { sq := sq.sync, sending := sending, probes := probes }

/-- The part of `run` before its loop. -/
def setup (env : Environment) (first last : UInt8) (timeout : Duration) (count : UInt16) :
    Except Exit (RunState slab) := do
  opened env.features
  opened env.sockets
  let probes := initialProbes first last count
  let sizes ← sizes env host method probes
  opened env.readers
  scheduleAll host slab method timeout probes sizes.ringEntries

end Setup

end Ringroute
