import Ringroute.PerProbe

namespace Ringroute
open Library
set_option autoImplicit true

section Orders

variable {host : Host} (uring : RecvMsgOutApi host)

/-- A successful read among the completions answers probe `i`. -/
def Answered (i : Nat) (cs : List (Sqe × Event)) : Prop := ∃ c ∈ cs, answer? uring i c ≠ none

/-- One of them is processed after the write of probe `i`. -/
def AnsweredAfterWrite (i : Nat) (cs : List (Sqe × Event)) : Prop :=
  ∃ write later, fromWrite i cs = some (write, later) ∧ Answered uring i later

/-- What the loop sees of a completion, the time it gets to it apart. -/
def seen : Sqe × Event → Sqe × Cqe × Option Bytes
  | (entry, event) =>
    (entry, event.cqe, event.cqe.bufferId.bind (event.getBuf · event.cqe.result.toNat))

variable {uring}

theorem receive_congr {event event' : Event} (reader : Multishot) (hcqe : event.cqe = event'.cqe)
    (hbuf : event.cqe.bufferId.bind (event.getBuf · event.cqe.result.toNat) =
      event'.cqe.bufferId.bind (event'.getBuf · event'.cqe.result.toNat)) :
    receive uring reader event = receive uring reader event' := by
  rw [receive, receive, fetch, fetch, ← hcqe]
  rw [← hcqe] at hbuf
  cases hid : event.cqe.bufferId with
  | none => rfl
  | some id =>
    rw [hid] at hbuf
    simp only [Option.bind_some] at hbuf
    simp only [expect, ok_bind, hbuf]

theorem answer?_seen {c c' : Sqe × Event} (h : seen c = seen c') :
    answer? uring i c ≠ none ↔ answer? uring i c' ≠ none := by
  obtain ⟨entry, event⟩ := c
  obtain ⟨entry', event'⟩ := c'
  obtain ⟨rfl, hrest⟩ := Prod.mk.inj h
  obtain ⟨hcqe, hbuf⟩ := Prod.mk.inj hrest
  simp only [answer?]
  cases entry.reader? with
  | none => exact .rfl
  | some reader =>
    dsimp only
    rw [← hcqe, receive_congr reader hcqe hbuf]
    split
    · split
      · split
        · exact iff_of_true (Option.some_ne_none _) (Option.some_ne_none _)
        · exact .rfl
      · exact .rfl
    · exact .rfl

theorem Answered.perm {cs ds : List (Sqe × Event)} (hp : (cs.map seen).Perm (ds.map seen))
    (h : Answered uring i cs) : Answered uring i ds := by
  obtain ⟨c, hc, ha⟩ := h
  obtain ⟨d, hd, he⟩ := List.mem_map.mp (hp.mem_iff.mp (List.mem_map_of_mem hc))
  exact ⟨d, hd, (answer?_seen he).mpr ha⟩

theorem findSome?_answered {cs : List (Sqe × Event)} :
    cs.findSome? (answer? uring i) ≠ none ↔ Answered uring i cs := by
  rw [Ne, List.findSome?_eq_none_iff]
  constructor
  · intro h
    by_contra hno
    exact h fun c hc => by_contra fun ha => hno ⟨c, hc, ha⟩
  · intro ⟨c, hc, ha⟩ h
    exact ha (h c hc)

theorem AnsweredAfterWrite.answered {cs : List (Sqe × Event)}
    (h : AnsweredAfterWrite uring i cs) : Answered uring i cs := by
  obtain ⟨write, later, hfrom, c, hc, ha⟩ := h
  have hmem : c ∈ cs := by
    induction cs with
    | nil => cases hfrom
    | cons d cs ih =>
      obtain ⟨entry, event⟩ := d
      rw [fromWrite] at hfrom
      split at hfrom
      · cases hfrom
        exact List.mem_cons_of_mem _ hc
      · exact List.mem_cons_of_mem _ (ih hfrom)
  exact ⟨c, hmem, ha⟩

theorem fromWrite_mem {cs : List (Sqe × Event)} (h : fromWrite i cs = some (write, later)) :
    ∃ entry, (entry, write) ∈ cs ∧ entry.probe? = some i := by
  induction cs with
  | nil => cases h
  | cons c cs ih =>
    obtain ⟨entry, event⟩ := c
    rw [fromWrite] at h
    split at h
    · rename_i hp
      cases h
      exact ⟨entry, List.mem_cons_self, hp⟩
    · obtain ⟨entry', hmem, hp⟩ := ih h
      exact ⟨entry', List.mem_cons_of_mem _ hmem, hp⟩

variable (uring) in
/-- The send of probe `i` went through, and an answer to it came after that. -/
def Heard (i : Nat) (cs : List (Sqe × Event)) : Prop :=
  sentAtOf i cs ≠ none ∧ AnsweredAfterWrite uring i cs

theorem resultOf_ne_none_iff {cs : List (Sqe × Event)} :
    resultOf uring i cs ≠ none ↔ Heard uring i cs := by
  rw [resultOf, Heard, sentAtOf, AnsweredAfterWrite]
  cases hfrom : fromWrite i cs with
  | none => simp
  | some found =>
    obtain ⟨write, later⟩ := found
    simp only [Option.bind_some]
    cases hsent : write.sentAt with
    | none => simp
    | some sentAt =>
      rw [Option.bind_some, Ne, Option.map_eq_none_iff, ← Ne, findSome?_answered]
      constructor
      · intro h
        exact ⟨Option.some_ne_none _, write, later, rfl, h⟩
      · rintro ⟨_, write', later', he, h⟩
        cases he
        exact h

theorem resultOf_iff {cs : List (Sqe × Event)}
    (hw : ∀ entry event, (entry, event) ∈ cs → entry.probe? = some i → event.cqe.result ≥ 0) :
    resultOf uring i cs ≠ none ↔ AnsweredAfterWrite uring i cs := by
  rw [resultOf_ne_none_iff]
  refine ⟨And.right, fun h => ⟨?_, h⟩⟩
  obtain ⟨write, later, hfrom, _⟩ := h
  obtain ⟨entry, hmem, hp⟩ := fromWrite_mem hfrom
  have hsent : write.sentAt = some write.now := if_pos (hw entry write hmem hp)
  rw [sentAtOf, hfrom]
  dsimp only [Option.bind_some]
  rw [hsent]
  exact Option.some_ne_none _

end Orders

namespace RunArgs

variable {host : Host} {uring : RecvMsgOutApi host} {slab : SlabApi Outgoing} {args : RunArgs}

/-- The probes that have a result. -/
def Recorded (probes : List Probe) (i : Nat) : Prop :=
  ∃ probe, probes[i]? = some probe ∧ probe.result ≠ none

theorem Leaves.recorded_iff (h : args.Leaves uring slab labels probes) (hi : i < args.probeCount)
    (hw : ∀ entry event j, (entry, event) ∈ completions labels → entry.probe? = some j →
      event.cqe.result ≥ 0) :
    Recorded probes i ↔ AnsweredAfterWrite uring i (completions labels) := by
  obtain ⟨w, hprocess, rfl⟩ := h.processes
  obtain ⟨probe, hprobe, _, hresult⟩ := hprocess.specified_of_lt hi
  rw [← resultOf_iff fun entry event hmem hp => hw entry event i hmem hp, ← hresult]
  constructor
  · rintro ⟨probe', he, hr⟩
    rw [hprobe] at he
    cases he
    exact hr
  · intro hr
    exact ⟨probe, hprobe, hr⟩

/-- In a run whose writes go through, the replies to its probes are all recorded exactly when each
probe that is answered is answered after its own write; and two runs that process the same
completions so, in whatever orders, leave the same probes with a result. -/
theorem Leaves.replies_recorded_iff (h : args.Leaves uring slab labels probes)
    (hw : ∀ entry event i, (entry, event) ∈ completions labels → entry.probe? = some i →
      event.cqe.result ≥ 0) :
    ((∀ i < args.probeCount, Answered uring i (completions labels) → Recorded probes i) ↔
      ∀ i < args.probeCount, Answered uring i (completions labels) →
        AnsweredAfterWrite uring i (completions labels)) ∧
    ∀ labels' probes', args.Leaves uring slab labels' probes' →
      ((completions labels).map seen).Perm ((completions labels').map seen) →
      (∀ i < args.probeCount, Answered uring i (completions labels) →
        AnsweredAfterWrite uring i (completions labels)) →
      (∀ i < args.probeCount, Answered uring i (completions labels') →
        AnsweredAfterWrite uring i (completions labels')) →
      ∀ i < args.probeCount, Recorded probes i ↔ Recorded probes' i := by
  constructor
  · constructor
    · intro hall i hi ha
      exact (h.recorded_iff hi hw).mp (hall i hi ha)
    · intro hall i hi ha
      exact (h.recorded_iff hi hw).mpr (hall i hi ha)
  · intro labels' probes' h' hperm hall hall' i hi
    have hw' : ∀ entry event i, (entry, event) ∈ completions labels' → entry.probe? = some i →
        event.cqe.result ≥ 0 := by
      intro entry event j hmem hp
      obtain ⟨⟨entry₀, event₀⟩, hmem₀, he⟩ :=
        List.mem_map.mp (hperm.mem_iff.mpr (List.mem_map_of_mem hmem))
      obtain ⟨rfl, hrest⟩ := Prod.mk.inj he
      rw [← (Prod.mk.inj hrest).1]
      exact hw entry₀ event₀ j hmem₀ hp
    rw [h.recorded_iff hi hw, h'.recorded_iff hi hw']
    constructor
    · intro ha
      exact hall' i hi (ha.answered.perm hperm)
    · intro ha
      exact hall i hi (ha.answered.perm hperm.symm)

theorem answer?_echo (t : Instant) :
    answer? (.layout .x86_64) 0 (echoReader.entry, echo t) ≠ none := by
  have h : (answer? (.layout .x86_64) 0 (echoReader.entry, echo t)).isSome = true := rfl
  exact Option.isSome_iff_ne_none.mp h

theorem answered_after_sent (ho : o.probe.index = 0) (t t' : Instant) :
    AnsweredAfterWrite (.layout .x86_64) 0
      [(writeEntry k o, sent k o t), (echoReader.entry, echo t')] :=
  ⟨sent k o t, _, if_pos (congrArg some ho), _, List.mem_cons_self, answer?_echo t'⟩

theorem sent_after_answered (ho : o.probe.index = 0) (t t' : Instant) :
    ¬ AnsweredAfterWrite (.layout .x86_64) 0
      [(echoReader.entry, echo t), (writeEntry k o, sent k o t')] := by
  rintro ⟨write, later, hfrom, c, hc, _⟩
  have hlast : fromWrite 0 [(echoReader.entry, echo t), (writeEntry k o, sent k o t')] =
      some (sent k o t', []) := if_pos (congrArg some ho)
  rw [hlast] at hfrom
  cases hfrom
  exact absurd hc List.not_mem_nil

/-- The completions of sends that go through and of echo replies to the first probe. -/
def Echoes (cs : List (Sqe × Event)) : Prop :=
  ∀ c ∈ cs, (∃ k o t, c = (writeEntry k o, sent k o t)) ∨ ∃ t, c = (echoReader.entry, echo t)

theorem Echoes.cons_sent {cs : List (Sqe × Event)} (h : Echoes cs) (k : Nat) (o : Outgoing)
    (t : Instant) : Echoes ((writeEntry k o, sent k o t) :: cs) :=
  List.forall_mem_cons.mpr ⟨.inl ⟨k, o, t, rfl⟩, h⟩

theorem Echoes.cons_echo {cs : List (Sqe × Event)} (h : Echoes cs) (t : Instant) :
    Echoes ((echoReader.entry, echo t) :: cs) :=
  List.forall_mem_cons.mpr ⟨.inr ⟨t, rfl⟩, h⟩

theorem echoes_nil : Echoes [] := fun _ hc => absurd hc List.not_mem_nil

theorem Echoes.result_nonneg {cs : List (Sqe × Event)} (h : Echoes cs) (entry : Sqe)
    (event : Event) (i : Nat) (hc : (entry, event) ∈ cs) (_ : entry.probe? = some i) :
    event.cqe.result ≥ 0 := by
  rcases h _ hc with ⟨k, o, t, he⟩ | ⟨t, he⟩
  · cases he
    exact Int.le_refl 0
  · cases he
    change (0 : Int) ≤ 52
    decide

theorem Echoes.answered {cs : List (Sqe × Event)} (h : Echoes cs) (hi : i < 3)
    (ha : Answered (.layout .x86_64) i cs) : i = 0 := by
  obtain ⟨c, hc, ha⟩ := ha
  rcases h c hc with ⟨k, o, t, rfl⟩ | ⟨t, rfl⟩
  · exact absurd rfl ha
  · match i, hi with
    | 0, _ => rfl
    | 1, _ => exact absurd rfl ha
    | 2, _ => exact absurd rfl ha

/-- The completions of two sends, with the reply to the first one between them or behind. -/
def replyBetween (k : Nat) (o : Outgoing) (k' : Nat) (o' : Outgoing) : List (Sqe × Event) :=
  [(writeEntry k o, sent k o 7), (echoReader.entry, echo 9), (writeEntry k' o', sent k' o' 10)]

def replyLast (k : Nat) (o : Outgoing) (k' : Nat) (o' : Outgoing) : List (Sqe × Event) :=
  [(writeEntry k' o', sent k' o' 6), (writeEntry k o, sent k o 7), (echoReader.entry, echo 9)]

theorem echoes_replyBetween : Echoes (replyBetween k o k' o') :=
  ((echoes_nil.cons_sent k' o' 10).cons_echo 9).cons_sent k o 7

theorem echoes_replyLast : Echoes (replyLast k o k' o') :=
  ((echoes_nil.cons_echo 9).cons_sent k o 7).cons_sent k' o' 6

theorem reply_perm :
    ((replyBetween k o k' o').map seen).Perm ((replyLast k o k' o').map seen) := by
  have hperm : [seen (writeEntry k o, sent k o 7), seen (echoReader.entry, echo 9)] ++
      [seen (writeEntry k' o', sent k' o' 10)] |>.Perm
        ([seen (writeEntry k' o', sent k' o' 10)] ++
          [seen (writeEntry k o, sent k o 7), seen (echoReader.entry, echo 9)]) :=
    List.perm_append_comm
  exact hperm

theorem answered_replyBetween (ho : o.probe.index = 0) (hi : i < 3)
    (ha : Answered (.layout .x86_64) i (replyBetween k o k' o')) :
    AnsweredAfterWrite (.layout .x86_64) i (replyBetween k o k' o') := by
  obtain rfl := echoes_replyBetween.answered hi ha
  exact ⟨sent k o 7, _, if_pos (congrArg some ho), _, List.mem_cons_self, answer?_echo 9⟩

theorem answered_replyLast (ho : o.probe.index = 0) (ho' : o'.probe.index = 1) (hi : i < 3)
    (ha : Answered (.layout .x86_64) i (replyLast k o k' o')) :
    AnsweredAfterWrite (.layout .x86_64) i (replyLast k o k' o') := by
  obtain rfl := echoes_replyLast.answered hi ha
  have hother : ¬ (writeEntry k' o').probe? = some 0 := by
    rw [writeEntry_probe?, ho']
    decide
  exact ⟨sent k o 7, _, (if_neg hother).trans (if_pos (congrArg some ho)), _,
    List.mem_cons_self, answer?_echo 9⟩

/-- A trace of three hops in the two orders, with its third send pending. -/
theorem loopback_replies :
    ∃ k o k' o', o.probe.index = 0 ∧ o'.probe.index = 1 ∧
      (∃ w : World (.vec Outgoing),
        (loopback 1 3 1).Reaches (.layout .x86_64) (script (replyBetween k o k' o')) w) ∧
      ∃ w : World (.vec Outgoing),
        (loopback 1 3 1).Reaches (.layout .x86_64) (script (replyLast k o k' o')) w := by
  obtain ⟨st, m₀, m₁, rest, h⟩ :=
    (loopback 1 3 1).submitted (.layout .x86_64) (.vec Outgoing) (by decide)
  obtain ⟨k, o, hmem, ho⟩ := h.writes 0 (by decide)
  obtain ⟨k', o', hmem', ho'⟩ := h.writes 1 (by decide)
  have hecho : Scripted ((loopback 1 3 1).readers .x86_64) rest (echoReader.entry, echo 9) :=
    scripted_echo List.mem_cons_self 9
  have hpending (is : List Nat) (his : is = [0, 1] ∨ is = [1, 0]) :
      is.Nodup ∧ ∃ i < (loopback 1 3 1).probeCount, i ∉ is := by
    rcases his with rfl | rfl <;> exact ⟨by decide, 2, by decide, by decide⟩
  have hbetween : written (replyBetween k o k' o') = [0, 1] := by
    rw [← ho, ← ho']
    rfl
  have hlast : written (replyLast k o k' o') = [1, 0] := by
    rw [← ho, ← ho']
    rfl
  obtain ⟨w, _, hreach, _⟩ := h.script (List.forall_mem_cons.mpr ⟨.send 7 hmem,
      List.forall_mem_cons.mpr ⟨hecho, List.forall_mem_singleton.mpr (.send 10 hmem')⟩⟩)
    (hpending _ (.inl hbetween)).1 (hpending _ (.inl hbetween)).2
  obtain ⟨w', _, hreach', _⟩ := h.script (List.forall_mem_cons.mpr ⟨.send 6 hmem',
      List.forall_mem_cons.mpr ⟨.send 7 hmem, List.forall_mem_singleton.mpr hecho⟩⟩)
    (hpending _ (.inr hlast)).1 (hpending _ (.inr hlast)).2
  exact ⟨k, o, k', o', ho, ho', ⟨w, hreach⟩, w', hreach'⟩

/-- Two runs whose only reply comes after the write it answers, with another write before it or
behind. -/
theorem replies_recorded_loopback :
    ∃ labels labels' probes probes',
      (loopback 1 3 1).Leaves (.layout .x86_64) (.vec Outgoing) labels probes ∧
      (loopback 1 3 1).Leaves (.layout .x86_64) (.vec Outgoing) labels' probes' ∧
      (∀ i < 3, Answered (.layout .x86_64) i (completions labels) → Recorded probes i) ∧
      Recorded probes 0 ∧ ∀ i < 3, Recorded probes i ↔ Recorded probes' i := by
  obtain ⟨k, o, k', o', ho, ho', ⟨w, hreach⟩, w', hreach'⟩ := loopback_replies
  have h := hreach.leaves
  have hafter : ∀ i < 3, Answered (.layout .x86_64) i (replyBetween k o k' o') →
      AnsweredAfterWrite (.layout .x86_64) i (replyBetween k o k' o') :=
    fun i hi => answered_replyBetween ho hi
  have hafter' : ∀ i < 3, Answered (.layout .x86_64) i (replyLast k o k' o') →
      AnsweredAfterWrite (.layout .x86_64) i (replyLast k o k' o') :=
    fun i hi => answered_replyLast ho ho' hi
  obtain ⟨hrecorded, horders⟩ := h.replies_recorded_iff echoes_replyBetween.result_nonneg
  have hall := hrecorded.mpr hafter
  have hfirst : Answered (.layout .x86_64) 0 (replyBetween k o k' o') :=
    ⟨_, List.mem_cons_of_mem _ List.mem_cons_self, answer?_echo 9⟩
  exact ⟨_, _, _, _, h, hreach'.leaves, hall, hall 0 (by decide) hfirst,
    horders _ _ hreach'.leaves reply_perm hafter hafter'⟩

/-- The reply to the first probe is recorded behind its write and lost ahead of it. -/
theorem reply_ahead_of_write_lost :
    ∃ labels labels' probes probes',
      (loopback 1 2 1).Leaves (.layout .x86_64) (.vec Outgoing) labels probes ∧
      (loopback 1 2 1).Leaves (.layout .x86_64) (.vec Outgoing) labels' probes' ∧
      ((completions labels).map seen).Perm ((completions labels').map seen) ∧
      Recorded probes 0 ∧ ¬ Recorded probes' 0 := by
  obtain ⟨k, o, ho, ⟨w, hreach, _⟩, w', hreach'⟩ := loopback_orders 7 9
  have h := hreach.leaves
  have h' := hreach'.leaves
  have hwrites := ((echoes_nil.cons_echo 9).cons_sent k o 7).result_nonneg
  have hwrites' := ((echoes_nil.cons_sent k o 9).cons_echo 7).result_nonneg
  refine ⟨_, _, _, _, h, h', .swap _ _ [], ?_, ?_⟩
  · exact (h.recorded_iff (by decide) hwrites).mpr (answered_after_sent ho 7 9)
  · rw [h'.recorded_iff (by decide) hwrites']
    exact sent_after_answered ho 7 9

end RunArgs

end Ringroute
