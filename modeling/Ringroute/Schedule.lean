import Ringroute.Route

namespace Ringroute
open Library
set_option autoImplicit true

section Untimed

/-- A probe without its times. -/
def Probe.untimed (probe : Probe) : Probe where
  ttl := probe.ttl
  sentAt := none
  result := probe.result.map fun result => { result with rtt := 0 }

def Piece.untimed : Piece → Piece
  | .result _ failure => .result 0 failure
  | piece => piece

/-- A line without its round-trip times. -/
def Line.untimed (line : Line) : Line where
  ttl := line.ttl
  pieces := line.pieces.map Piece.untimed

theorem printHopProbes_untimed (previous : Option (Option IpAddr)) (hop : List Probe) :
    printHopProbes previous (hop.map Probe.untimed) =
      (printHopProbes previous hop).map Piece.untimed := by
  induction hop generalizing previous with
  | nil => rfl
  | cons probe hop ih =>
    rw [List.map_cons, printHopProbes, printHopProbes, Probe.untimed]
    cases probe.result with
    | none =>
      rw [Option.map_none, List.map_cons, ← ih]
      rfl
    | some result =>
      simp only [Option.map_some, ih]
      split <;> rfl

theorem printHop_untimed (hop : List Probe) :
    printHop (hop.map Probe.untimed) = (printHop hop).untimed := by
  rw [printHop, printHop, Line.untimed, printHopProbes_untimed, List.map_map]
  rfl

theorem terminates_untimed (hop : List Probe) :
    terminates (hop.map Probe.untimed) = terminates hop := by
  rw [terminates, terminates, List.filterMap_map]
  have hresult : (Probe.result ∘ Probe.untimed) = fun probe =>
      (Probe.result probe).map fun result => { result with rtt := 0 } := rfl
  rw [hresult, ← List.map_filterMap, List.any_map]
  rfl

variable {first last : UInt8} {count : UInt16} {probes : List Probe}

theorem Laid.untimed (h : Laid first last count probes) :
    Laid first last count (probes.map Probe.untimed) := by
  rw [Laid, List.map_map]
  exact h

theorem printResults_untimed (h : Laid first last count probes) (hcount : 0 < count.toNat) :
    printResults (probes.map Probe.untimed) = (printResults probes).map Line.untimed := by
  have hslice (k : Nat) : hopSlice count (probes.map Probe.untimed) k =
      (hopSlice count probes k).map Probe.untimed := by
    rw [hopSlice, hopSlice, List.map_take, List.map_drop]
  have hhops : hopsOf (probes.map Probe.untimed) =
      (hopsOf probes).map (List.map Probe.untimed) := by
    rw [hopsOf_slices h hcount, hopsOf_slices h.untimed hcount, List.map_map]
    exact List.map_congr_left fun k _ => hslice k
  rw [printResults, printResults, hhops, printHops_eq, printHops_eq, takeThrough_map,
    List.map_map, List.map_map]
  rw [takeThrough_congr fun hop _ => terminates_untimed hop]
  exact List.map_congr_left fun hop _ => printHop_untimed hop

end Untimed

/-- What a trace over the route would leave if it heard of the given probes. -/
def Route.heard (route : Route) (args : RunArgs) (heard : Nat → Bool) : List Probe :=
  args.initialProbes.mapIdx fun i probe =>
    if heard i then
      { probe with
        result := some
          { source := (route.respond probe.ttl).source
            rtt := 0
            kind := (route.respond probe.ttl).kind } }
    else probe

namespace RunArgs

variable {host : Host} {uring : RecvMsgOutApi host} {slab : SlabApi Outgoing} {args : RunArgs}

theorem sentAtOf_ne_none_iff {cs : List (Sqe × Event)} (hnodup : (written cs).Nodup) :
    sentAtOf i cs ≠ none ↔
      ∃ entry event, (entry, event) ∈ cs ∧ entry.probe? = some i ∧ event.cqe.result ≥ 0 := by
  constructor
  · intro h
    obtain ⟨sentAt, hsent⟩ := Option.ne_none_iff_exists'.mp h
    obtain ⟨⟨write, later⟩, hfrom, hsome⟩ := Option.bind_eq_some_iff.mp hsent
    obtain ⟨entry, hmem, hp⟩ := fromWrite_mem hfrom
    refine ⟨entry, write, hmem, hp, ?_⟩
    by_contra hfailed
    simp only [Event.sentAt, if_neg hfailed, reduceCtorEq] at hsome
  · rintro ⟨entry, event, hmem, hp, hok⟩
    obtain ⟨later, hfrom⟩ := fromWrite_of_mem hmem hp hnodup
    have hsent : event.sentAt = some event.now := if_pos hok
    rw [sentAtOf, hfrom]
    dsimp only [Option.bind_some]
    rw [hsent]
    exact Option.some_ne_none _

theorem sent_perm {cs ds : List (Sqe × Event)} (hp : (cs.map seen).Perm (ds.map seen))
    (hcs : (written cs).Nodup) (hds : (written ds).Nodup) (h : sentAtOf i cs ≠ none) :
    sentAtOf i ds ≠ none := by
  obtain ⟨entry, event, hmem, hprobe, hok⟩ := (sentAtOf_ne_none_iff hcs).mp h
  obtain ⟨⟨entry', event'⟩, hmem', he⟩ :=
    List.mem_map.mp (hp.mem_iff.mp (List.mem_map_of_mem hmem))
  obtain ⟨rfl, hrest⟩ := Prod.mk.inj he
  refine (sentAtOf_ne_none_iff hds).mpr ⟨entry', event', hmem', hprobe, ?_⟩
  rw [(Prod.mk.inj hrest).1]
  exact hok

/-- But for the times, a trace leaves what the route and the probes heard of make of it. -/
theorem Processes.untimed {route : Route} {w : World slab} (h : args.Processes uring labels w)
    (hadmitted : args.Admitted)
    (hbuild : arg.build pnet system target packetLen = .ok args.method)
    (hover : args.Over arg uring route.network (completions labels))
    (hheard : ∀ i < args.probeCount, heard i = true ↔ Heard uring i (completions labels)) :
    w.run.probes.map Probe.untimed = route.heard args heard := by
  have hexplains := h.explains hadmitted hbuild hover
  apply List.ext_getElem?
  intro i
  rw [Route.heard, List.getElem?_map, List.getElem?_mapIdx]
  cases hp : w.run.probes[i]? with
  | none =>
    have hlen := List.getElem?_eq_none_iff.mp hp
    rw [h.length_probes, ← args.length_initialProbes] at hlen
    rw [List.getElem?_eq_none hlen]
    rfl
  | some probe =>
    have ht := h.ttl? hp
    obtain ⟨probe', hp', _, hresult⟩ := h.specified_of_lt (ttl?_lt ht)
    rw [hp] at hp'
    cases hp'
    rw [RunArgs.ttl?, List.getElem?_map] at ht
    obtain ⟨initial, hinitial, httl⟩ := Option.map_eq_some_iff.mp ht
    obtain ⟨hsent, hnone⟩ := initialProbes_unsent (List.mem_of_getElem? hinitial)
    have hiff := (hheard i (ttl?_lt (h.ttl? hp))).trans resultOf_ne_none_iff.symm
    rw [← hresult] at hiff
    rw [hinitial, Option.map_some, Option.map_some, Option.some_inj]
    obtain ⟨ttl, sentAt, result⟩ := initial
    cases hsent
    cases hnone
    cases httl
    cases hr : probe.result with
    | none =>
      have hno : ¬ heard i = true := by
        rw [hiff, hr]
        exact fun hc => hc rfl
      rw [if_neg hno, Probe.untimed, hr]
      rfl
    | some result =>
      have hyes : heard i = true := by
        rw [hiff, hr]
        exact Option.some_ne_none _
      obtain ⟨hsource, hkind⟩ := hexplains probe (List.mem_of_getElem? hp) result hr
      rw [if_pos hyes, Probe.untimed, hr, ← hsource, ← hkind]
      rfl

/-- The report of a trace over a route does not depend on the schedule. But for the times it is a
function of the route and of the probes heard of, so that two runs that hear of the same probes
print the same; and two runs that process the same completions, in whatever orders and batches, hear
of the same probes unless one of them processes an answer ahead of the send it answers. -/
theorem Leaves.report_of_heard {route : Route} (h : args.Leaves uring slab labels probes)
    (hadmitted : args.Admitted)
    (hbuild : arg.build pnet system target packetLen = .ok args.method)
    (hover : args.Over arg uring route.network (completions labels)) :
    (∀ heard : Nat → Bool,
      (∀ i < args.probeCount, heard i = true ↔ Heard uring i (completions labels)) →
      (printResults probes).map Line.untimed = printResults (route.heard args heard)) ∧
    ∀ labels' probes', args.Leaves uring slab labels' probes' →
      args.Over arg uring route.network (completions labels') →
      ((∀ i < args.probeCount,
          Heard uring i (completions labels) ↔ Heard uring i (completions labels')) →
        (printResults probes).map Line.untimed = (printResults probes').map Line.untimed) ∧
      (((completions labels).map seen).Perm ((completions labels').map seen) →
        (∀ i < args.probeCount, Answered uring i (completions labels) →
          AnsweredAfterWrite uring i (completions labels)) →
        (∀ i < args.probeCount, Answered uring i (completions labels') →
          AnsweredAfterWrite uring i (completions labels')) →
        (printResults probes).map Line.untimed = (printResults probes').map Line.untimed) := by
  obtain ⟨w, hw, rfl⟩ := h.processes
  have hreport : ∀ heard : Nat → Bool,
      (∀ i < args.probeCount, heard i = true ↔ Heard uring i (completions labels)) →
      (printResults w.run.probes).map Line.untimed = printResults (route.heard args heard) := by
    intro heard hheard
    rw [← printResults_untimed hw.laid hadmitted.count.1,
      hw.untimed hadmitted hbuild hover hheard]
  refine ⟨hreport, ?_⟩
  intro labels' probes' h' hover'
  obtain ⟨w', hw', rfl⟩ := h'.processes
  have hsame : (∀ i < args.probeCount,
        Heard uring i (completions labels) ↔ Heard uring i (completions labels')) →
      (printResults w.run.probes).map Line.untimed =
        (printResults w'.run.probes).map Line.untimed := by
    classical
    intro hiff
    rw [hreport (fun i => decide (Heard uring i (completions labels)))
        (fun i _ => decide_eq_true_iff),
      ← printResults_untimed hw'.laid hadmitted.count.1,
      hw'.untimed hadmitted hbuild hover' fun i hi => decide_eq_true_iff.trans (hiff i hi)]
  refine ⟨hsame, ?_⟩
  intro hperm hafter hafter'
  refine hsame fun i hi => ?_
  constructor
  · rintro ⟨hsent, hanswered⟩
    exact ⟨sent_perm hperm hw.nodup_written hw'.nodup_written hsent,
      hafter' i hi (hanswered.answered.perm hperm)⟩
  · rintro ⟨hsent, hanswered⟩
    exact ⟨sent_perm hperm.symm hw'.nodup_written hw.nodup_written hsent,
      hafter i hi (hanswered.answered.perm hperm.symm)⟩

theorem heard_replyBetween (ho : o.probe.index = 0) (hi : i < 3) :
    (i == 0) = true ↔ Heard (.layout .x86_64) i (replyBetween k o k' o') := by
  rw [beq_iff_eq]
  constructor
  · rintro rfl
    refine ⟨?_, answered_replyBetween ho hi ⟨_, List.mem_cons_of_mem _ List.mem_cons_self,
      answer?_echo 9⟩⟩
    rw [replyBetween, sentAtOf, fromWrite_loopback ho]
    exact Option.some_ne_none 7
  · exact fun h => echoes_replyBetween.answered hi h.2.answered

/-- Two orders of the same completions, whose only reply is to the first probe. -/
theorem report_of_heard_loopback :
    ∃ labels labels' probes probes',
      (loopback 1 3 1).Leaves (.layout .x86_64) (.vec Outgoing) labels probes ∧
      (loopback 1 3 1).Leaves (.layout .x86_64) (.vec Outgoing) labels' probes' ∧
      labels ≠ labels' ∧
      (printResults probes).map Line.untimed =
        [⟨1, [.source (some (.v4 .localhost)), .result 0 none]⟩] ∧
      (printResults probes).map Line.untimed = (printResults probes').map Line.untimed := by
  obtain ⟨k, o, k', o', ho, ho', ⟨w, hreach⟩, w', hreach'⟩ := loopback_replies
  have h := hreach.leaves
  have hadmitted : (loopback 1 3 1).Admitted := ⟨by decide, by decide, by decide, by decide⟩
  have hbuild : MethodArg.icmp.build Pnet.layout loopbackSystem loopbackAddr 60 =
      .ok (loopback 1 3 1).method := rfl
  have hover : (loopback 1 3 1).Over .icmp (.layout .x86_64) loopbackRoute.network
      (completions (script (replyBetween k o k' o'))) := echoes_replyBetween.over rfl rfl
  have hover' : (loopback 1 3 1).Over .icmp (.layout .x86_64) loopbackRoute.network
      (completions (script (replyLast k o k' o'))) := echoes_replyLast.over rfl rfl
  obtain ⟨hreport, horders⟩ := h.report_of_heard hadmitted hbuild hover
  refine ⟨_, _, _, _, h, hreach'.leaves, ?_, ?_, ?_⟩
  · intro he
    have hcompletions := congrArg (fun labels => (completions labels).map fun c => c.1.probe?) he
    simp only [completions_script, replyBetween, replyLast, List.map_cons, writeEntry_probe?, ho,
      ho'] at hcompletions
    exact absurd (List.cons.inj hcompletions).1 (by decide)
  · refine (hreport (· == 0) fun i hi => ?_).trans (by decide)
    exact heard_replyBetween ho hi
  · exact (horders _ _ hreach'.leaves hover').2 reply_perm
      (fun i hi => answered_replyBetween ho hi) fun i hi => answered_replyLast ho ho' hi

end RunArgs

end Ringroute
