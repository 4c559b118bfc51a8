import Ringroute.Library.Path
import Ringroute.Trace

namespace Ringroute
open Library
set_option autoImplicit true

/-- Where the loop of `run` stands: about to call `submit_and_wait`, or going through a batch. -/
inductive Phase where
  | submitting
  | draining
  deriving DecidableEq, Repr

/-- The loop together with the requests the kernel has taken and not finished. -/
structure World (slab : SlabApi Outgoing) where
  run : RunState slab
  phase : Phase
  inFlight : List Sqe

/-- What `submit_and_wait` returns, an error with its raw OS number. -/
inductive SubmitResult where
  | ok
  | err (errno : Option Int)
  deriving DecidableEq, Repr

def ebusy : Int := 16

/-- What the loop meets next: the result of `submit_and_wait`, a completion of the request
`entry`, or the end of the batch. -/
inductive Label where
  | submit (result : SubmitResult)
  | complete (entry : Sqe) (event : Event)
  | drained

/-- A multishot read is finished by a completion without `IORING_CQE_F_MORE`, any other request by
its only one. -/
def Sqe.finished (entry : Sqe) (event : Event) : Bool :=
  match entry.opcode with
  | .recvMsgMulti _ _ => !event.cqe.more
  | _ => true

section Steps

variable {host : Host} (uring : RecvMsgOutApi host) {slab : SlabApi Outgoing}
  (readers : List Multishot)

/-- One step of a loop with the given body that goes on. The kernel takes every published entry
when `submit_and_wait` succeeds and none on `EBUSY`, and a completion carries the tag of the
request it is of. -/
inductive StepBy (body : RunState slab → Event → Except (Returned slab) (RunState slab × Bool)) :
    World slab → Label → World slab → Prop where
  | submit : StepBy body ⟨st, .submitting, inFlight⟩ (.submit .ok)
      ⟨{ st with sq := st.sq.consume }, .draining, inFlight ++ st.sq.published⟩
  | busy : StepBy body ⟨st, .submitting, inFlight⟩ (.submit (.err (some ebusy)))
      ⟨st, .draining, inFlight⟩
  | complete (tag : event.cqe.userData = entry.userData)
      (h : body st event = .ok (st', failed)) :
      StepBy body ⟨st, .draining, front ++ entry :: back⟩ (.complete entry event)
        ⟨st', .draining,
          if entry.finished event then front ++ back else front ++ entry :: back⟩
  | drained : StepBy body ⟨st, .draining, inFlight⟩ .drained
      ⟨{ st with sq := st.sq.sync }, .submitting, inFlight⟩

/-- One step of a run. -/
abbrev Step : World slab → Label → World slab → Prop := StepBy (onCompletion uring readers)

/-- One step of a loop that never finds the trace done. -/
abbrev Proceeds : World slab → Label → World slab → Prop := StepBy (process uring readers)

theorem StepBy.at {body : RunState slab → Event → Except (Returned slab) (RunState slab × Bool)}
    {w : World slab} {st' : RunState slab} (i : Nat) (hp : w.phase = .draining)
    (he : w.inFlight[i]? = some entry) (tag : event.cqe.userData = entry.userData)
    (h : body w.run event = .ok (st', failed)) :
    StepBy body w (.complete entry event)
      ⟨st', .draining, if entry.finished event then w.inFlight.eraseIdx i else w.inFlight⟩ := by
  obtain ⟨st, phase, inFlight⟩ := w
  cases hp
  obtain ⟨hlt, hget⟩ := List.getElem?_eq_some_iff.mp he
  have hsplit : inFlight = inFlight.take i ++ entry :: inFlight.drop (i + 1) := by
    rw [← hget, List.getElem_cons_drop, List.take_append_drop]
  have hstep := @StepBy.complete slab body st event st' failed (inFlight.take i) entry
    (inFlight.drop (i + 1)) tag h
  rw [← hsplit, ← List.eraseIdx_eq_take_drop_succ] at hstep
  exact hstep

/-- A step at which `run` returns, or panics. -/
inductive Exits : World slab → Label → Returned slab → Prop where
  | submit (h : errno ≠ some ebusy) :
      Exits ⟨st, .submitting, inFlight⟩ (.submit (.err errno)) ⟨.submitError errno, st⟩
  | complete (tag : event.cqe.userData = entry.userData)
      (h : onCompletion uring readers st event = .error returned) :
      Exits ⟨st, .draining, front ++ entry :: back⟩ (.complete entry event) returned

theorem Exits.at {uring : RecvMsgOutApi host} {readers : List Multishot} {w : World slab}
    {returned : Returned slab} (i : Nat) (hp : w.phase = .draining)
    (he : w.inFlight[i]? = some entry) (tag : event.cqe.userData = entry.userData)
    (h : onCompletion uring readers w.run event = .error returned) :
    Exits uring readers w (.complete entry event) returned := by
  obtain ⟨st, phase, inFlight⟩ := w
  cases hp
  obtain ⟨hlt, hget⟩ := List.getElem?_eq_some_iff.mp he
  have hsplit : inFlight = inFlight.take i ++ entry :: inFlight.drop (i + 1) := by
    rw [← hget, List.getElem_cons_drop, List.take_append_drop]
  have hexit := @Exits.complete host uring slab readers st event returned (inFlight.take i) entry
    (inFlight.drop (i + 1)) tag h
  rw [← hsplit] at hexit
  exact hexit

/-- The completions among the labels of a run. -/
def completions : List Label → List (Sqe × Event)
  | [] => []
  | .complete entry event :: labels => (entry, event) :: completions labels
  | _ :: labels => completions labels

end Steps

theorem completions_append (as bs : List Label) :
    completions (as ++ bs) = completions as ++ completions bs := by
  induction as with
  | nil => rfl
  | cons a as ih => cases a <;> simp only [List.cons_append, completions, ih]

namespace World

variable {slab : SlabApi Outgoing}

/-- The world the loop starts in. -/
def start (st : RunState slab) : World slab := ⟨st, .submitting, []⟩

/-- The requests pushed and not finished. -/
def outstanding (w : World slab) : List Sqe := w.run.sq.waiting ++ w.inFlight

end World

def Sqe.reader? (entry : Sqe) : Option Multishot :=
  match entry.opcode with
  | .recvMsgMulti reader _ => some reader
  | _ => none

/-- The slab entry a write is tagged with. -/
def Sqe.pending? (entry : Sqe) : Option (Nat × Outgoing) :=
  match entry.opcode with
  | .sendMsg outgoing => some (entry.userData.slot.toNat, outgoing)
  | _ => none

@[simp] theorem Multishot.entry_reader? (m : Multishot) : m.entry.reader? = some m := rfl

theorem Multishot.entry_ne_timeoutEntry (m : Multishot) (d : Duration) :
    m.entry ≠ timeoutEntry d := by
  intro h
  cases congrArg Sqe.opcode h

theorem writeEntry_ne_timeoutEntry (k : Nat) (o : Outgoing) (d : Duration) :
    writeEntry k o ≠ timeoutEntry d := by
  intro h
  cases congrArg Sqe.opcode h

theorem writeEntry_pending? (hk : k < 2 ^ 16) : (writeEntry k o).pending? = some (k, o) := by
  simp only [writeEntry, Sqe.pending?, UserData.slot_tag]
  rw [UInt16.toNat_ofNat_of_lt' hk]

@[simp] theorem Multishot.entry_finished (m : Multishot) (e : Event) :
    m.entry.finished e = !e.cqe.more := rfl

/-- The requests that `run` makes. -/
inductive Sqe.Request (readers : List Multishot) (n : Nat) : Sqe → Prop where
  | read {m : Multishot} (h : readers[m.slot.toNat]? = some m) : Request readers n m.entry
  | write {o : Outgoing} (hk : k < 2 ^ 16) (ho : o.probe.index < n) :
      Request readers n (writeEntry k o)
  | timeout : Request readers n (timeoutEntry d)

/-- The invariant of the loop, about the requests `os` that are not finished: each is one that
`run` makes, the reads among them are one for each reader, and the slab holds the buffers of the
writes among them. -/
structure Sound (readers : List Multishot) (st : RunState slab) (os : List Sqe) : Prop where
  request : ∀ entry ∈ os, entry.Request readers st.probes.length
  reads : (os.filterMap Sqe.reader?).Perm readers
  writes : slab.Holds st.sending (os.filterMap Sqe.pending?)

theorem Sound.perm {st : RunState slab} (h : Sound readers st os) (hp : os.Perm os') :
    Sound readers st os' where
  request entry he := h.request entry (hp.mem_iff.mpr he)
  reads := (hp.filterMap _).symm.trans h.reads
  writes := h.writes.perm (hp.filterMap _)

end Ringroute
