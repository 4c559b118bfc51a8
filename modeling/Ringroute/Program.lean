import Mathlib.Data.List.Forall2
import Ringroute.CommandLine
import Ringroute.ReportText
import Ringroute.Route

namespace Ringroute
open Library
set_option autoImplicit true

/-- An entry of a report, as it is read, tells of a node: its source, and its annotation if it has
one. -/
def Response.ToldBy (node : Response) (entry : String × String × Option String) : Prop :=
  entry.1 = sourceText node.source ∧ entry.2.2 = node.kind.failure.map Unreachable.display

/-- A line of a report, as it is read, has an entry for each probe, and tells of a node and of no
other. -/
structure Response.OnLine (node : Response) (count : Nat) (line : Nat × List Told) : Prop where
  length : line.2.length = count
  answered : ∃ entry, some entry ∈ line.2
  told : ∀ entry, some entry ∈ line.2 → node.ToldBy entry

section Lines

variable {route : Route} {probes : List Probe} {first last t : UInt8} {count : UInt16}
  {ms : MsFormat}

theorem map_toNat_hopRange (first last : UInt8) : (hopRange first last).map UInt8.toNat =
    List.range' first.toNat (last.toNat + 1 - first.toNat) := by
  have hlast : last.toNat < 256 := last.toNat_lt
  rw [hopRange, List.map_map]
  refine (List.map_congr_left fun n hn => ?_).trans (List.map_id _)
  have hn := List.mem_range'_1.mp hn
  exact UInt8.toNat_ofNat_of_lt' (by change n < 256; omega)

theorem Laid.length_hopAt (h : Laid first last count probes) (hcount : 0 < count.toNat)
    (ht : t ∈ hopRange first last) : (hopAt probes t).length = count.toNat := by
  have hmem : hopAt probes t ∈ Ringroute.hopsOf probes := by
    rw [h.hopsOf hcount]
    exact List.mem_map_of_mem ht
  rw [hopsOf_slices h hcount] at hmem
  obtain ⟨k, hk, hslice⟩ := List.mem_map.mp hmem
  obtain ⟨_, _, hall⟩ := h.hopSlice_ttl hcount (List.mem_range.mp hk)
  rw [← hslice, ← List.length_map Probe.ttl, hall, List.length_replicate]

theorem Route.Explains.toldBy (h : route.Explains probes) (hp : probe ∈ hopAt probes t)
    (htold : probe.told ms = some entry) : (route.respond t).ToldBy entry := by
  obtain ⟨hmem, rfl⟩ := mem_hopAt.mp hp
  obtain ⟨shown, hshown, rfl⟩ := Option.map_eq_some_iff.mp htold
  obtain ⟨result, hresult, rfl⟩ := Option.map_eq_some_iff.mp hshown
  obtain ⟨hsource, hkind⟩ := h probe hmem result hresult
  exact ⟨congrArg sourceText hsource,
    congrArg (fun kind => (ReplyKind.failure kind).map Unreachable.display) hkind⟩

theorem Route.Explains.onLine (h : route.Explains probes) (hlaid : Laid first last count probes)
    (hcount : 0 < count.toNat) (ht : t ∈ hopRange first last) (hanswered : HopAnswered probes t) :
    (route.respond t).OnLine count.toNat (t.toNat, (hopAt probes t).map (Probe.told ms)) := by
  refine ⟨?_, ?_, ?_⟩
  · rw [List.length_map, hlaid.length_hopAt hcount ht]
  · obtain ⟨probe, hmem, httl, hne⟩ := hanswered
    obtain ⟨result, hresult⟩ := Option.ne_none_iff_exists'.mp hne
    have htold : probe.told ms = some (sourceText result.source, ms.display result.rtt,
        result.kind.failure.map Unreachable.display) := by
      rw [Probe.told, Probe.shown, hresult]
      rfl
    exact ⟨_, List.mem_map.mpr ⟨probe, mem_hopAt.mpr ⟨hmem, httl⟩, htold⟩⟩
  · intro entry hentry
    obtain ⟨probe, hprobe, htold⟩ := List.mem_map.mp hentry
    exact h.toldBy hprobe htold

/-- A report that ends with the target has a line for each node of the route. -/
theorem Route.Explains.report_terminated (h : route.Explains probes)
    (hlaid : Laid first last count probes) (hcount : 0 < count.toNat) (hfirst : 1 ≤ first.toNat)
    (ht : Terminated probes first t) (hmem : t ∈ hopRange first last)
    (hmade : ∀ probe ∈ probes, probe.Made) :
    ∃ report, readReport (reportText ms (printResults probes)) = some report ∧
      report.map Prod.fst = List.range' first.toNat report.length ∧
      List.Forall₂ (fun node line => node.OnLine count.toNat line) (route.nodesFrom first)
        report := by
  have hread := @Laid.readReport ms _ _ _ _ hlaid hmade
  rw [hlaid.printedHops_terminated ht hmem] at hread
  refine ⟨_, hread, ?_, ?_⟩
  · rw [List.map_map, List.length_map, length_hopRange, ← map_toNat_hopRange]
    rfl
  · rw [← route.map_respond hfirst (h.terminated hfirst ht hmem), List.forall₂_map_left_iff,
      List.forall₂_map_right_iff, List.forall₂_same]
    intro s hs
    have hrange : s ∈ hopRange first last := by
      obtain ⟨hle, hlt⟩ := mem_hopRange.mp hs
      exact mem_hopRange.mpr ⟨hle, Nat.le_trans hlt (mem_hopRange.mp hmem).2⟩
    exact h.onLine hlaid hcount hrange (ht.answered s hs)

end Lines

section Main

variable {host : Host} {uring : RecvMsgOutApi host} {slab : SlabApi Outgoing} {route : Route}
  {resolver : Resolver} {pnet : Pnet} {system : TcpSystem} {args : Args} {run : RunArgs}

/-- The program tells the route. Where `main` comes to a trace, and the trace finds its target
before the timeout, the text that is printed reads as the nodes of the route from the first hop on
in their order, the target last: each has the next hop limit and a line of its own, with an entry
for each probe, some of which tell of the node and none of another. -/
theorem main_tells_route {returned : Returned slab}
    (h : main resolver pnet system args = .ok run) (hends : run.Ends uring labels returned)
    (hok : returned.exit = .ok probes)
    (htimeout : ∀ d event, .complete (timeoutEntry d) event ∉ labels)
    (hover : run.Over args.method uring route.network (completions labels)) (ms : MsFormat) :
    ∃ report, readReport (reportText ms (printResults probes)) = some report ∧
      report.map Prod.fst = List.range' args.firstHop.toNat report.length ∧
      List.Forall₂ (fun node line => node.OnLine args.count.toNat line)
        (route.nodesFrom args.firstHop) report := by
  have hadmitted := main_admitted h
  obtain ⟨_, target, method, _, hbuild, rfl⟩ := main_ok h
  obtain ⟨before, label, w, rfl, hreach, hexit⟩ := hends
  have hlabel : ∀ d event, label ≠ .complete (timeoutEntry d) event := by
    rintro d event rfl
    exact htimeout d event (List.mem_append_right _ List.mem_cons_self)
  obtain ⟨u, hu, rfl, hcomplete⟩ := hreach.exits_done hexit hok hlabel
  obtain ⟨t, hmem, ht⟩ := hu.laid.terminated (Bool.and_eq_true_iff.mp hcomplete).2
  have hmade : ∀ probe ∈ u.run.probes, probe.Made := by
    intro probe hp result hr failure hfailure
    exact hu.made hbuild hp hr hfailure
  exact (hu.explains hadmitted hbuild hover).report_terminated hu.laid hadmitted.count.1
    hadmitted.first_pos ht hmem hmade

/-- The command line of the TCP trace over the router. -/
def routerArgs : Args :=
  { loopbackArgs with
    method := .tcp
    maxHops := 3
    maxHops_pos := by decide }

theorem main_router :
    main loopbackResolver Pnet.layout loopbackSystem routerArgs = .ok RunArgs.routerTcp := rfl

theorem routerLabels_untimed (d : Duration) (event : Event) :
    .complete (timeoutEntry d) event ∉ RunArgs.routerLabels k o k' o' k'' o'' := by
  have hwrite (k : Nat) (o : Outgoing) := writeEntry_ne_timeoutEntry k o d
  have hexpired := RunArgs.errReader.entry_ne_timeoutEntry d
  have hacknowledged := RunArgs.recvReader.entry_ne_timeoutEntry d
  rw [RunArgs.routerLabels, ← RunArgs.script_concat]
  refine RunArgs.script_untimed (List.forall_mem_append.mpr
    ⟨?_, List.forall_mem_singleton.mpr (hwrite k'' o'')⟩)
  exact List.forall_mem_cons.mpr ⟨hwrite k o, List.forall_mem_cons.mpr ⟨hexpired,
    List.forall_mem_cons.mpr ⟨hwrite k' o', List.forall_mem_singleton.mpr hacknowledged⟩⟩⟩

/-- The text of the trace over the router reads as two lines, the first of which tells of the router
and the second of the target. -/
theorem main_tells_route_loopback :
    ∃ labels probes, ∃ returned : Returned (.vec Outgoing),
      RunArgs.routerTcp.Ends (.layout .x86_64) labels returned ∧
      returned.exit = .ok probes ∧
      ∃ router target : Nat × List Told, router.1 = 1 ∧ target.1 = 2 ∧
        readReport (reportText .std (printResults probes)) = some [router, target] ∧
        (∃ entry, some entry ∈ router.2 ∧
          entry.1 = sourceText (some (.v4 ⟨#v[10, 0, 0, 1]⟩))) ∧
        ∃ entry, some entry ∈ target.2 ∧ entry.1 = sourceText (some loopbackAddr) := by
  obtain ⟨k, o, k', o', k'', o'', w, w', h, _, hstep, hsent, hanswered⟩ := RunArgs.router_run
  have hover := @RunArgs.routerLabels_over k o k' o' k'' o''
  have hw := h.processes.step hstep
  have hends : HopTerminates w'.run.probes 2 :=
    ((hw.explains RunArgs.routerTcp_admitted RunArgs.routerTcp_build hover).hopTerminates_iff
      (by decide)).mpr ⟨by decide, hanswered 2 (by decide)⟩
  have hexit := (h.completes hstep).1
    (hw.complete_iff.mpr ⟨hsent, 2, by decide, hends, hanswered⟩)
  obtain ⟨report, hread, hhops, hlines⟩ :=
    main_tells_route main_router (h.ends hexit) rfl routerLabels_untimed hover .std
  change List.Forall₂ _ [_, RunArgs.routerRoute.target] report at hlines
  cases hlines with
  | @cons _ router _ _ hrouter hlines =>
    cases hlines with
    | @cons _ target _ _ htarget hrest =>
      cases hrest
      obtain ⟨hfirst, hhops⟩ := List.cons.inj hhops
      obtain ⟨entry, hentry⟩ := hrouter.answered
      obtain ⟨entry', hentry'⟩ := htarget.answered
      exact ⟨_, _, _, h.ends hexit, rfl, router, target, hfirst, (List.cons.inj hhops).1, hread,
        ⟨entry, hentry, (hrouter.told entry hentry).1⟩, entry', hentry',
        (htarget.told entry' hentry').1⟩

end Main

end Ringroute
