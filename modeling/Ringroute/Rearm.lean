import Ringroute.FirstBatch

namespace Ringroute
open Library
set_option autoImplicit true

/-- How many reads of a reader are pushed and not finished. -/
def World.armed (w : World slab) (m : Multishot) : Nat :=
  w.outstanding.countP fun entry => entry.reader?.any fun reader => reader.slot == m.slot

section Arming

variable {host : Host} {uring : RecvMsgOutApi host} {slab : SlabApi Outgoing}
  {readers : List Multishot}

theorem countP_readersOf (hm : m ∈ readersOf host method) :
    (readersOf host method).countP (fun reader => reader.slot == m.slot) = 1 := by
  obtain ⟨q₀, q₁, _, hr⟩ := readersOf_eq host method
  rw [hr] at hm ⊢
  rcases List.mem_cons.mp hm with rfl | hm
  · rfl
  · rcases List.mem_cons.mp hm with rfl | hm
    · rfl
    · exact absurd hm List.not_mem_nil

theorem World.armed_eq (w : World slab) (m : Multishot) :
    w.armed m =
      (w.outstanding.filterMap Sqe.reader?).countP fun reader => reader.slot == m.slot := by
  rw [World.armed, List.countP_filterMap]
  congr 1
  funext entry
  cases entry.reader? <;> rfl

theorem Sound.armed {w : World slab} (hs : Sound (readersOf host method) w.run w.outstanding)
    (hm : m ∈ readersOf host method) : w.armed m = 1 := by
  rw [w.armed_eq, hs.reads.countP_eq]
  exact countP_readersOf hm

theorem Sound.read_opcode {os : List Sqe} (hs : Sound (readersOf host method) st os)
    (hm : m ∈ readersOf host method) (he : entry ∈ os)
    (hread : entry.reader?.any (fun reader => reader.slot == m.slot) = true) :
    entry.opcode = .recvMsgMulti m (if m.queue.errQueue then 0x2000 else 0) := by
  obtain ⟨reader, hreader, hslot⟩ := (Option.any_eq_true _ _).mp hread
  cases hs.request entry he with
  | @read m' hm' =>
    obtain rfl : m' = reader := Option.some.inj hreader
    rw [eq_of_beq hslot, readersOf_getElem? hm] at hm'
    obtain rfl : m = m' := Option.some.inj hm'
    rfl
  | write => cases hreader
  | timeout => cases hreader

theorem filterMap_reader_length {os : List Sqe} (h : ∀ e ∈ os, ∃ m : Multishot, e = m.entry) :
    (os.filterMap Sqe.reader?).length = os.length := by
  induction os with
  | nil => rfl
  | cons e os ih =>
    obtain ⟨m, rfl⟩ := h e List.mem_cons_self
    have ih := ih fun e' he' => h e' (List.mem_cons_of_mem _ he')
    simp only [List.filterMap_cons, Multishot.entry_reader?, List.length_cons, ih]

/-- The reads that wait for the next `sync` and those of the readers in flight are one for each
reader together. -/
theorem World.Invariant.pushed_length {w : World slab} (hi : w.Invariant readers n) :
    w.run.sq.pushed.length + (w.inFlight.filterMap Sqe.reader?).length ≤ readers.length := by
  have hlen := hi.sound.reads.length_eq
  simp only [World.outstanding, SubmissionRing.waiting, List.filterMap_append, List.length_append,
    filterMap_reader_length hi.pushed] at hlen
  omega

end Arming

namespace RunArgs

variable {host : Host} {uring : RecvMsgOutApi host} {slab : SlabApi Outgoing} {args : RunArgs}

/-- In every world a run reaches, each reader has exactly one read outstanding, which reads its own
queue, and so a batch pushes no more reads than there are queues, the batch the run returns in
included. -/
theorem Reaches.armed_once {w : World slab} (h : args.Reaches uring labels w) :
    (∀ m ∈ args.readers host, w.armed m = 1 ∧ ∀ entry ∈ w.outstanding,
      entry.reader?.any (fun reader => reader.slot == m.slot) = true →
        entry.opcode = .recvMsgMulti m (if m.queue.errQueue then 0x2000 else 0)) ∧
    w.run.sq.pushed.length ≤ args.method.queues.length ∧
    ∀ label returned, Exits uring (args.readers host) w label returned →
      returned.state.sq.pushed.length ≤ args.method.queues.length := by
  have hi := h.invariant
  have hlen : (args.readers host).length = args.method.queues.length := by
    rw [args.method.queues_length]
    exact length_readersOf
  have hpushed := hi.pushed_length
  refine ⟨fun m hm => ⟨hi.sound.armed hm, fun entry he => hi.sound.read_opcode hm he⟩, by omega, ?_⟩
  intro label returned he
  cases he with
  | submit =>
    dsimp only at hpushed ⊢
    omega
  | @complete st event returned front entry back tag hreturn =>
    have hs := hi.sound_complete
    cases hs.completion_error tag hreturn with
    | done hp =>
      obtain ⟨hh, hs'⟩ := hs.processed tag hp
      have hpushed' := (hi.completed hh hs').pushed_length
      simp only [World.completed] at hpushed' ⊢
      omega
    | panic =>
      dsimp only at hpushed ⊢
      omega
    | full he hmore hpush hring =>
      dsimp only at hpushed ⊢
      rw [hring]
      omega

/-- A run in which the first reader is armed again before the first batch is over. -/
theorem armed_once_loopback :
    ∃ m labels, ∃ w : World (.vec Outgoing),
      (loopback 1 2 1).Reaches (.layout .x86_64) labels w ∧
      w.run.sq.pushed.filterMap Sqe.reader? = [m] ∧ w.armed m = 1 ∧ ∀ entry ∈ w.outstanding,
        entry.reader?.any (fun reader => reader.slot == m.slot) = true →
          entry.opcode = .recvMsgMulti m (if m.queue.errQueue then 0x2000 else 0) := by
  obtain ⟨st, m, m₁, rest, h⟩ :=
    (loopback 1 2 1).submitted (.layout .x86_64) (.vec Outgoing) (by decide)
  obtain ⟨sq, hpush⟩ := Option.isSome_iff_exists.mp ((h.counts.push_isSome_iff m.entry).mpr (by
    change _ + 0 + st.sq.pushed.length < st.sq.capacity
    rw [h.pushed, h.capacity]
    decide))
  have hok := onCompletion_dropped (.layout .x86_64) { st with sq := st.sq.consume } h.first hpush
    (h.sending (by decide))
  have hreach := h.reaches.step (.at 0 rfl (congrArg (·[0]?) h.published) rfl hok)
  refine ⟨m, _, _, hreach, ?_, hreach.armed_once.1 m (List.mem_of_getElem? h.first)⟩
  rw [SubmissionRing.push_eq_some hpush]
  change (st.sq.pushed ++ [m.entry]).filterMap Sqe.reader? = [m]
  rw [h.pushed]
  rfl

end RunArgs

end Ringroute
