import Ringroute.Rearm

namespace Ringroute
open Library
set_option autoImplicit true

namespace RunArgs

variable {host : Host} {uring : RecvMsgOutApi host} {slab : SlabApi Outgoing} {args : RunArgs}

/-- In a ring with room for one entry or none more than it was sized for, the two readers cannot
both be armed again in the first batch. -/
theorem first_batch_full (uring : RecvMsgOutApi host) (slab : SlabApi Outgoing)
    (hpos : 0 < args.probeCount) (hlt : args.probeCount < 2 ^ 16)
    (hsmall : nextPowerOfTwo (args.probeCount + 3) < args.probeCount + 5) :
    ∃ labels, ∃ returned : Returned slab, args.Ends uring labels returned ∧
      returned.exit = .pushError := by
  obtain ⟨st, m₀, m₁, rest, h⟩ := args.submitted uring slab hlt
  have hboth : st.sq.consume.pushAll [m₀.entry, m₁.entry] = none :=
    h.counts.pushAll_eq_none _ (by
      change st.sq.capacity < _ + 0 + st.sq.pushed.length + 2
      rw [h.capacity, h.pushed]
      exact hsmall)
  cases hpush : st.sq.consume.push m₀.entry with
  | none =>
    have hfull := onCompletion_dropped_full uring { st with sq := st.sq.consume } h.first hpush
    exact ⟨_, _, ⟨_, _, _, rfl, h.reaches,
      .at 0 rfl (congrArg (·[0]?) h.published) rfl hfull⟩, rfl⟩
  | some sq =>
    have hnone : sq.push m₁.entry = none := by
      simpa only [SubmissionRing.pushAll, hpush, Option.bind_some, Option.bind_fun_some]
        using hboth
    have hok := onCompletion_dropped uring { st with sq := st.sq.consume } h.first hpush
      (h.sending hpos)
    have hreach := h.reaches.step (.at 0 rfl (congrArg (·[0]?) h.published) rfl hok)
    have hfull := onCompletion_dropped_full uring { st with sq := sq } h.second hnone
    exact ⟨_, _, ⟨_, _, _, rfl, hreach,
      .at 0 rfl (congrArg (fun flight => (flight.eraseIdx 0)[0]?) h.published) rfl hfull⟩, rfl⟩

/-- A ring with room for two entries more than it was sized for is never full. -/
theorem Reaches.exit_ne_pushError {w : World slab} {returned : Returned slab}
    (h : args.Reaches uring labels w)
    (hroom : args.ringSize + 2 ≤ nextPowerOfTwo args.ringSize)
    (he : Exits uring (args.readers host) w label returned) : returned.exit ≠ .pushError := by
  have hi := h.invariant
  cases he with
  | submit =>
    intro hexit
    cases hexit
  | @complete st event returned front entry back tag hreturn =>
    have hs := hi.sound_complete
    cases hs.completion_error tag hreturn with
    | done =>
      intro hexit
      cases hexit
    | panic =>
      intro hexit
      cases hexit
    | @full st' m he hmore hpush =>
      subst he
      obtain ⟨stale, hc, hseen⟩ :
          ∃ stale, st.sq.Counts stale ∧ stale + st.sq.published.length ≤ args.ringSize := hi.counts
      have hlen : (args.readers host).length = 2 := length_readersOf
      have hpushed := hi.pushed_length
      have hcap : st.sq.capacity = nextPowerOfTwo args.ringSize := hi.capacity
      have hfull := (hc.push_isSome_iff m.entry).not.mp (by
        rw [hpush]
        exact Bool.false_ne_true)
      simp only [List.filterMap_append, List.filterMap_cons, Multishot.entry_reader?,
        List.length_append, List.length_cons] at hpushed
      rw [hcap] at hfull
      omega

/-- The pushes of a run all find room, whatever the order and the batches its completions come
in, exactly when the ring, a power of two, has two entries more than the first batch fills. -/
theorem pushes_find_room_iff (args : RunArgs) (h : args.Admitted) (uring : RecvMsgOutApi host)
    (slab : SlabApi Outgoing) :
    ((∀ env, args.setup env host slab ≠ .error .pushError) ∧
      ∀ labels, ∀ returned : Returned slab, args.Ends uring labels returned →
        returned.exit ≠ .pushError) ↔
      (args.last.toNat + 1 - args.first.toNat) * args.count.toNat + 5 ≤
        nextPowerOfTwo ((args.last.toNat + 1 - args.first.toNat) * args.count.toNat + 3) := by
  change _ ↔ args.probeCount + 5 ≤ nextPowerOfTwo (args.probeCount + 3)
  constructor
  · rintro ⟨_, hends⟩
    by_contra hsmall
    obtain ⟨labels, returned, hend, hexit⟩ :=
      first_batch_full uring slab h.probeCount_pos h.probeCount_lt (by omega)
    exact hends labels returned hend hexit
  · intro hroom
    constructor
    · exact fun env => setup_ne_pushError
    · rintro labels returned ⟨before, label, w, _, hreach, hexits⟩
      refine hreach.exit_ne_pushError ?_ hexits
      rw [args.ringSize_eq]
      exact hroom

/-- With the default hops and count no push fails. -/
theorem pushes_find_room_default :
    (∀ env, (loopback 1 30 3).setup env .x86_64 (.vec Outgoing) ≠ .error .pushError) ∧
      ∀ labels, ∀ returned : Returned (.vec Outgoing),
        (loopback 1 30 3).Ends (.layout .x86_64) labels returned → returned.exit ≠ .pushError :=
  (pushes_find_room_iff (loopback 1 30 3) ⟨by decide, by decide, by decide, by decide⟩ _ _).mpr
    (by decide)

/-- Five hops of one probe fill a ring of eight entries, which leaves no room for a read to be
armed again in the first batch. -/
theorem five_hops_push_fails :
    (loopback 1 5 1).Admitted ∧ ∃ labels, ∃ returned : Returned (.vec Outgoing),
      (loopback 1 5 1).Ends (.layout .x86_64) labels returned ∧ returned.exit = .pushError :=
  ⟨⟨by decide, by decide, by decide, by decide⟩,
    first_batch_full _ _ (by decide) (by decide) (by decide)⟩

end RunArgs

end Ringroute
