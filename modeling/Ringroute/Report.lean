import Ringroute.Hops
import Ringroute.PerProbe

namespace Ringroute
open Library
set_option autoImplicit true

/-- What `print_hop_probes` writes, piece by piece. -/
inductive Piece where
  | source (ip : Option IpAddr)
  | result (rtt : Duration) (failure : Option Unreachable)
  | star
  deriving DecidableEq, Repr

/-- A line of the report. -/
structure Line where
  ttl : UInt8
  pieces : List Piece
  deriving DecidableEq, Repr

def ReplyKind.failure : ReplyKind → Option Unreachable
  | .unreachable failure => some failure
  | _ => none

def printHopProbes (lastSource : Option (Option IpAddr)) : List Probe → List Piece
  | [] => []
  | probe :: hop =>
    match probe.result with
    | some result =>
      let piece := Piece.result result.rtt result.kind.failure
      if lastSource ≠ some result.source then
        .source result.source :: piece :: printHopProbes (some result.source) hop
      else piece :: printHopProbes lastSource hop
    | none => .star :: printHopProbes lastSource hop

/-- The line of a hop, which has at least one probe. -/
def printHop (hop : List Probe) : Line where
  ttl := (hop.map Probe.ttl).headD 0
  pieces := printHopProbes none hop

def printHops : List (List Probe) → List Line
  | [] => []
  | hop :: hops => if terminates hop then [printHop hop] else printHop hop :: printHops hops

/-- Print the results of a trace to standard output. -/
def printResults (probes : List Probe) : List Line := printHops (hopsOf probes)

/-- The hops that the report of some probes has lines for. -/
def printedHops (probes : List Probe) : List UInt8 := (printResults probes).map Line.ttl

theorem printHops_eq (hops : List (List Probe)) :
    printHops hops = (takeThrough terminates hops).map printHop := by
  induction hops with
  | nil => rfl
  | cons hop hops ih =>
    rw [printHops, takeThrough, ih]
    split <;> rfl

theorem printHop_first (h : hopsOf probes = hop :: hops) :
    printHop hop ∈ printResults probes := by
  rw [printResults, h, printHops]
  split <;> exact List.mem_cons_self

theorem printHop_ttl (h : t ∈ probes.map Probe.ttl) : (printHop (hopAt probes t)).ttl = t := by
  obtain ⟨probe, hmem, ht⟩ := List.mem_map.mp h
  have hhop : probe ∈ hopAt probes t := mem_hopAt.mpr ⟨hmem, ht⟩
  cases hhead : hopAt probes t with
  | nil => exact absurd (hhead ▸ hhop) List.not_mem_nil
  | cons first hop => exact (mem_hopAt.mp (hhead ▸ List.mem_cons_self)).2

/-- The report goes through the hops up to the first that ends the trace. -/
theorem Laid.printedHops_eq (h : Laid first last count probes) (hcount : 0 < count.toNat) :
    printedHops probes =
      takeThrough (fun t => terminates (hopAt probes t)) (hopRange first last) := by
  rw [printedHops, printResults, h.hopsOf hcount, printHops_eq, takeThrough_map, List.map_map,
    List.map_map]
  refine (List.map_congr_left ?_).trans (List.map_id _)
  intro t ht
  have hmem := takeThrough_subset ht
  apply printHop_ttl
  rw [h]
  refine List.mem_flatMap.mpr ⟨t, hmem, ?_⟩
  exact List.mem_replicate.mpr ⟨Nat.ne_of_gt hcount, rfl⟩

theorem Laid.printedHops_terminated (h : Laid first last count probes)
    (ht : Terminated probes first t) (hmem : t ∈ hopRange first last) :
    printedHops probes = hopRange first t := by
  have hne : probes ≠ [] := by
    rintro rfl
    obtain ⟨probe, hprobe, _⟩ := ht.terminates
    exact List.not_mem_nil hprobe
  obtain ⟨front, back, he, hrange, hnot⟩ := hopRange_mem hmem
  rw [h.printedHops_eq (h.count_pos hne), he, ← hrange]
  refine takeThrough_append ?_ (hopAt_terminates.mpr ht.terminates)
  intro s hs
  refine Bool.eq_false_iff.mpr fun hc => ?_
  have hst : s ≠ t := by
    rintro rfl
    exact hnot hs
  exact ht.earliest s (hrange ▸ List.mem_append_left _ hs) hst (hopAt_terminates.mp hc)

theorem Laid.printedHops_prefix (h : Laid first last count probes)
    (h' : Laid first last count probes')
    (hkept : ∀ t, HopTerminates probes t → HopTerminates probes' t) :
    printedHops probes' <+: printedHops probes := by
  rcases Nat.eq_zero_or_pos count.toNat with hcount | hcount
  · obtain rfl := h.nil hcount
    obtain rfl := h'.nil hcount
    exact List.prefix_rfl
  · rw [h.printedHops_eq hcount, h'.printedHops_eq hcount]
    apply takeThrough_prefix
    intro t _ ht
    exact hopAt_terminates.mpr (hkept t (hopAt_terminates.mp ht))

section Kept

variable {host : Host} {uring : RecvMsgOutApi host}

theorem Probe.after_result {probe : Probe} {r : ProbeResult} (hr : probe.result = some r)
    (c : Sqe × Event) : (probe.after uring i c).result = some r := by
  obtain ⟨entry, event⟩ := c
  by_cases hp : entry.probe? = some i
  · rw [Probe.after_write probe hp]
    split <;> exact hr
  · rw [Probe.after_answered (by rw [hr]; exact Option.some_ne_none _) hp]
    exact hr

theorem foldl_result {cs : List (Sqe × Event)} {probe : Probe} (hr : probe.result = some result) :
    (cs.foldl (Probe.after uring i) probe).result = some result := by
  induction cs generalizing probe with
  | nil => exact hr
  | cons c cs ih => exact ih (Probe.after_result hr c)

theorem foldl_ttl (cs : List (Sqe × Event)) (probe : Probe) :
    (cs.foldl (Probe.after uring i) probe).ttl = probe.ttl := by
  induction cs generalizing probe with
  | nil => rfl
  | cons c cs ih => rw [List.foldl_cons, ih, Probe.after_ttl]

end Kept

namespace RunArgs

variable {host : Host} {uring : RecvMsgOutApi host} {slab : SlabApi Outgoing} {args : RunArgs}

/-- No send is pending, and the leading answered hops hold a result that ends the trace. -/
def TargetReached (args : RunArgs) (labels : List Label) (probes : List Probe) : Prop :=
  args.AllSent labels ∧ ∃ t ∈ hopRange args.first args.last,
    HopTerminates probes t ∧ ∀ s ∈ hopRange args.first t, HopAnswered probes s

theorem Processes.laid {w : World slab} (h : args.Processes uring labels w) :
    Laid args.first args.last args.count w.run.probes := by
  have hinitial : Laid args.first args.last args.count args.initialProbes := initialProbes_laid
  rw [Laid, ← hinitial]
  apply List.ext_getElem?
  intro i
  rw [List.getElem?_map, List.getElem?_map, h.probes, Option.map_map]
  apply Option.map_congr
  intro probe _
  exact foldl_ttl _ probe

theorem Processes.complete_iff {w : World slab} (h : args.Processes uring labels w) :
    w.run.complete = true ↔ args.TargetReached labels w.run.probes := by
  rw [RunState.complete, Bool.and_eq_true, h.isEmpty_sending_iff]
  refine and_congr_right fun _ => ?_
  constructor
  · intro hdone
    obtain ⟨t, hmem, ht⟩ := h.laid.terminated hdone
    exact ⟨t, hmem, ht.terminates, ht.answered⟩
  · rintro ⟨t, hmem, hterm, hanswered⟩
    exact h.laid.reachedTarget_of hmem hterm hanswered

theorem Processes.hopTerminates {w w' : World slab} (h : args.Processes uring labels w)
    (h' : args.Processes uring (labels ++ more) w') (ht : HopTerminates w.run.probes t) :
    HopTerminates w'.run.probes t := by
  obtain ⟨probe, hmem, httl, result, hresult, hkind⟩ := ht
  obtain ⟨i, hi⟩ := List.mem_iff_getElem?.mp hmem
  have hprobe := h.probes i
  rw [hi] at hprobe
  obtain ⟨first, hfirst, rfl⟩ := Option.map_eq_some_iff.mp hprobe.symm
  have hlater : w'.run.probes[i]? = some ((completions more).foldl (Probe.after uring i)
      ((completions labels).foldl (Probe.after uring i) first)) := by
    rw [h'.probes, hfirst, completions_append, Option.map_some, List.foldl_append]
  refine ⟨_, List.mem_of_getElem? hlater, (foldl_ttl _ _).trans httl, result,
    foldl_result hresult, hkind⟩

theorem Reaches.not_targetReached {w u : World slab}
    (h : args.Reaches uring (labels ++ .complete entry event :: later) w)
    (hu : args.Processes uring (labels ++ [.complete entry event]) u) :
    ¬ args.TargetReached (labels ++ [.complete entry event]) u.run.probes := by
  obtain ⟨st, hstart, hpath⟩ := h
  rw [List.append_cons] at hpath
  obtain ⟨v, hpath, _⟩ := hpath.split
  have hv : args.Reaches uring (labels ++ [.complete entry event]) v := ⟨st, hstart, hpath⟩
  obtain ⟨t, hbefore, hstep⟩ := hpath.last
  have ht : args.Reaches uring labels t := ⟨st, hstart, hbefore⟩
  have hprobes : u.run.probes = v.run.probes :=
    List.ext_getElem? fun i => by rw [hu.probes, hv.processes.probes]
  rw [hprobes, ← hv.processes.complete_iff, Bool.not_eq_true]
  cases hstep with
  | @complete st event st' failed front entry back tag hok =>
    have hs := ht.invariant.sound_complete
    exact (hs.completion_ok tag hok).2

/-- Early termination agrees with the report. A run that returns on a completion other than the
timeout has sent every probe, its report is the hops up to the first with a result that ends the
trace, all of them answered, and no later completion would have made the report longer. A run goes
on until a completion that leaves no send pending and the leading answered hops with a result that
ends the trace, and returns on that. -/
theorem Reaches.termination_agrees_with_report {w : World slab} (h : args.Reaches uring labels w) :
    (∀ label returned probes, Exits uring (args.readers host) w label returned →
      returned.exit = .ok probes → (∀ d event, label ≠ .complete (timeoutEntry d) event) →
      args.AllSent (labels ++ [label]) ∧
      ∃ t ∈ hopRange args.first args.last,
        HopTerminates probes t ∧
        (∀ s ∈ hopRange args.first args.last, HopTerminates probes s → t ≤ s) ∧
        printedHops probes = hopRange args.first t ∧
        (∀ s ∈ printedHops probes, HopAnswered probes s) ∧
        ∀ more (w' : World slab), args.Processes uring (labels ++ [label] ++ more) w' →
          printedHops w'.run.probes <+: hopRange args.first t) ∧
    (∀ before entry event later (u : World slab),
      labels = before ++ .complete entry event :: later →
      args.Processes uring (before ++ [.complete entry event]) u →
      ¬ args.TargetReached (before ++ [.complete entry event]) u.run.probes) ∧
    ∀ entry event (w' : World slab),
      Proceeds uring (args.readers host) w (.complete entry event) w' →
      (args.TargetReached (labels ++ [.complete entry event]) w'.run.probes →
        Exits uring (args.readers host) w (.complete entry event) ⟨.ok w'.run.probes, w'.run⟩) ∧
      (¬ args.TargetReached (labels ++ [.complete entry event]) w'.run.probes →
        (∀ d, entry ≠ timeoutEntry d) →
        Step uring (args.readers host) w (.complete entry event) w') := by
  refine ⟨?_, ?_, ?_⟩
  · intro label returned probes he hok hlabel
    obtain ⟨u, hu, rfl, hcomplete⟩ := h.exits_done he hok hlabel
    obtain ⟨hsent, hdone⟩ := Bool.and_eq_true_iff.mp hcomplete
    obtain ⟨t, hmem, ht⟩ := hu.laid.terminated hdone
    have hprinted := hu.laid.printedHops_terminated ht hmem
    refine ⟨hu.isEmpty_sending_iff.mp hsent, t, hmem, ht.terminates, ?_, hprinted, ?_, ?_⟩
    · intro s hs hterm
      by_contra hlt
      have hlt := UInt8.lt_iff_toNat_lt.mp (UInt8.not_le.mp hlt)
      have hst : s ≠ t := by
        rintro rfl
        exact Nat.lt_irrefl _ hlt
      exact ht.earliest s (mem_hopRange.mpr ⟨(mem_hopRange.mp hs).1, Nat.le_of_lt hlt⟩) hst hterm
    · rw [hprinted]
      exact ht.answered
    · intro more w' hw'
      rw [← hprinted]
      exact hu.laid.printedHops_prefix hw'.laid fun s hs => hu.hopTerminates hw' hs
  · intro before entry event later u hlabels hu
    exact (hlabels ▸ h).not_targetReached hu
  · intro entry event w' hstep
    obtain ⟨hreturn, hgo⟩ := h.completes hstep
    have hiff := (h.processes.step hstep).complete_iff
    constructor
    · intro htarget
      exact hreturn (hiff.mpr htarget)
    · intro htarget
      exact hgo (Bool.eq_false_iff.mpr fun hc => htarget (hiff.mp hc))

/-- A trace of two hops whose first probe the target answers ends on its last send, with one hop
to report. -/
theorem termination_agrees_with_report_loopback :
    ∃ labels probes, ∃ returned : Returned (.vec Outgoing),
      (loopback 1 2 1).Ends (.layout .x86_64) labels returned ∧ returned.exit = .ok probes ∧
      printedHops probes = [1] := by
  obtain ⟨k, o, ho, ⟨w, h, hphase, k', o', ho', hmem⟩, _⟩ := loopback_orders 7 9
  obtain ⟨i, hi⟩ := List.mem_iff_getElem?.mp hmem
  obtain ⟨st', failed, hok⟩ := h.processes.sends hi 8
  have hstep : Proceeds (.layout .x86_64) ((loopback 1 2 1).readers .x86_64) w _ _ :=
    .at i hphase hi rfl hok
  have hprocess := h.processes.step hstep
  have hwritten : written [(writeEntry k o, sent k o 7), (echoReader.entry, echo 9),
      (writeEntry k' o', sent k' o' 8)] = [0, 1] := by
    simp only [written, List.filterMap_cons, writeEntry_probe?, ho, ho', Multishot.entry_probe?,
      List.filterMap_nil]
  have hresult : resultOf (.layout .x86_64) 0 [(writeEntry k o, sent k o 7),
      (echoReader.entry, echo 9), (writeEntry k' o', sent k' o' 8)] =
      some ⟨some (.v4 .localhost), 2, .destination⟩ := resultOf_loopback ho _
  have hterm : HopTerminates st'.probes 1 :=
    ⟨_, List.mem_of_getElem? (hprocess.specified 0), rfl, _, hresult, rfl⟩
  have hexit := (h.termination_agrees_with_report.2.2 _ _ _ hstep).1 (by
    refine ⟨?_, 1, by decide, hterm, ?_⟩
    · intro i hi
      change i ∈ written [_, _, _]
      rw [hwritten]
      exact List.mem_range.mpr hi
    · intro s hs
      exact List.mem_singleton.mp hs ▸ hterm.answered)
  have hwrite (d : Duration) (event : Event) :
      Label.complete (writeEntry k' o') (sent k' o' 8) ≠ .complete (timeoutEntry d) event := by
    intro hc
    exact writeEntry_ne_timeoutEntry k' o' d (Label.complete.inj hc).1
  obtain ⟨_, t, hmem, _, hearliest, hprinted, _⟩ :=
    h.termination_agrees_with_report.1 _ _ _ hexit rfl hwrite
  have hle := UInt8.le_iff_toNat_le.mpr (mem_hopRange.mp hmem).1
  have ht : t = 1 := UInt8.le_antisymm (hearliest 1 (by decide) hterm) hle
  subst ht
  exact ⟨_, _, _, h.ends hexit, rfl, hprinted⟩

end RunArgs

end Ringroute
