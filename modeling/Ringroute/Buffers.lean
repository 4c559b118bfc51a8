import Ringroute.FirstBatch
import Ringroute.History

namespace Ringroute
open Library
set_option autoImplicit true

/-- The steps on which `run` returns without asking for the pending sends: an error from
`submit_and_wait`, the timeout, and a read that finds no room to be armed again. -/
inductive Label.Unguarded (w : World slab) : Label → Prop where
  | submit : Unguarded w (.submit result)
  | timeout : Unguarded w (.complete (timeoutEntry d) event)
  | rearm {m : Multishot} (hmore : event.cqe.more = false) (hpush : w.run.sq.push m.entry = none) :
      Unguarded w (.complete m.entry event)

namespace RunArgs

variable {host : Host} {uring : RecvMsgOutApi host} {slab : SlabApi Outgoing} {args : RunArgs}

theorem Exits.sending_eq {w : World slab} {returned : Returned slab}
    (h : args.Reaches uring labels w) (he : Exits uring (args.readers host) w label returned)
    (hu : label.Unguarded w) :
    (slab.isEmpty returned.state.sending = true ↔ slab.isEmpty w.run.sending = true) ∧
      (args.AllSent (labels ++ [label]) ↔ args.AllSent labels) := by
  have hi := h.invariant
  cases he with
  | submit =>
    refine ⟨.rfl, ?_⟩
    rw [AllSent, AllSent, completions_append]
    simp only [completions, List.append_nil]
  | @complete st event returned front entry back tag hreturn =>
    have hs := hi.sound_complete
    have hnone : entry.probe? = none := by
      cases hu <;> rfl
    refine ⟨?_, by rw [AllSent, AllSent, written_snoc_none labels hnone]⟩
    cases hs.completion_error tag hreturn with
    | done hp =>
      have hw := (h.processes.step (.complete tag hp)).isEmpty_sending_iff
      rw [AllSent, written_snoc_none labels hnone] at hw
      exact hw.trans h.processes.isEmpty_sending_iff.symm
    | panic => exact .rfl
    | full _ _ _ _ hsending => rw [hsending]

/-- When a run returns, its slab is empty exactly when every send has completed; and that is so
exactly when the step it returns on is the guarded one or every send had completed before it. -/
theorem Reaches.sending_isEmpty_iff {w : World slab} {returned : Returned slab}
    (h : args.Reaches uring labels w) (he : Exits uring (args.readers host) w label returned)
    (hp : ∀ site, returned.exit ≠ .panic site) :
    (slab.isEmpty returned.state.sending = true ↔ args.AllSent (labels ++ [label])) ∧
    (slab.isEmpty returned.state.sending = true ↔ ¬ label.Unguarded w ∨ args.AllSent labels) := by
  by_cases hu : label.Unguarded w
  · obtain ⟨hempty, hsent⟩ := Exits.sending_eq h he hu
    rw [hempty, hsent, h.processes.isEmpty_sending_iff]
    exact ⟨.rfl, ⟨.inr, fun hc => hc.resolve_left (absurd hu)⟩⟩
  · have hi := h.invariant
    cases he with
    | submit => exact absurd .submit hu
    | @complete st event returned front entry back tag hreturn =>
      have hs := hi.sound_complete
      cases hs.completion_error tag hreturn with
      | done hprocess hdone =>
        have hcomplete : slab.isEmpty _ = true :=
          (Bool.and_eq_true_iff.mp (hdone.resolve_right fun ⟨d, hd⟩ => hu (hd ▸ .timeout))).1
        have hw := (h.processes.step (.complete tag hprocess)).isEmpty_sending_iff
        exact ⟨hw, iff_of_true hcomplete (.inl hu)⟩
      | panic => exact absurd rfl (hp _)
      | full he hmore hpush =>
        subst he
        exact absurd (.rearm hmore hpush) hu

/-- A trace of two probes that returns on its timeout. -/
theorem sending_isEmpty_iff_loopback :
    ∃ labels, ∃ returned : Returned (.vec Outgoing),
      (loopback 1 2 1).Ends (.layout .x86_64) labels returned ∧
      ((SlabApi.vec Outgoing).isEmpty returned.state.sending = true ↔
        (loopback 1 2 1).AllSent labels) := by
  obtain ⟨st, m, m₁, rest, h⟩ :=
    (loopback 1 2 1).submitted (.layout .x86_64) (.vec Outgoing) (by decide)
  have hexit := exits_timeout (.layout .x86_64) ((loopback 1 2 1).readers .x86_64) h.mem_timeout rfl
  exact ⟨_, _, h.reaches.ends hexit,
    (h.reaches.sending_isEmpty_iff hexit fun _ hc => nomatch hc).1⟩

/-- A trace of two probes whose timeout runs out before their sends complete returns with both
sends pending. -/
theorem timeout_returns_with_sends_pending :
    ∃ labels, ∃ probes, ∃ returned : Returned (.vec Outgoing),
      (loopback 1 2 1).Ends (.layout .x86_64) labels returned ∧
      .submit .ok ∈ labels ∧ returned.exit = .ok probes ∧
      ¬ (loopback 1 2 1).AllSent labels ∧
      (SlabApi.vec Outgoing).isEmpty returned.state.sending = false := by
  obtain ⟨st, m, m₁, rest, h⟩ :=
    (loopback 1 2 1).submitted (.layout .x86_64) (.vec Outgoing) (by decide)
  have hexit := exits_timeout (.layout .x86_64) ((loopback 1 2 1).readers .x86_64) h.mem_timeout rfl
  refine ⟨_, _, _, h.reaches.ends hexit, List.mem_cons_self, rfl, ?_, h.sending (by decide)⟩
  intro hall
  exact absurd (hall 0 (by decide)) List.not_mem_nil

end RunArgs

end Ringroute
