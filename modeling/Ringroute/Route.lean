import Ringroute.Library.Forwarding
import Ringroute.Network

namespace Ringroute
open Library
set_option autoImplicit true

/-- The way that every probe takes: routers, whose errors do not end a trace, and behind them the
target, whose answer does. -/
structure Route where
  routers : List Response
  target : Response
  passes : ∀ response ∈ routers, response.kind.terminatesTrace = false
  arrives : target.kind.terminatesTrace = true

namespace Route

/-- What comes back for a probe that is sent with a hop limit. -/
def respond (route : Route) (t : UInt8) : Response := forward route.target route.routers t.toNat

def network (route : Route) : Network := fun t response => response = route.respond t

/-- The least hop limit with which the target is reached. -/
def distance (route : Route) : Nat := route.routers.length + 1

theorem respond_terminates (route : Route) (ht : 1 ≤ t.toNat) :
    (route.respond t).kind.terminatesTrace = true ↔ route.distance ≤ t.toNat := by
  rw [distance, respond]
  by_cases hpast : route.routers.length < t.toNat
  · rw [forward_past hpast]
    exact iff_of_true route.arrives hpast
  · have hshort := @forward_short _ t.toNat route.target route.routers (by omega) (by omega)
    refine iff_of_false ?_ hpast
    rw [route.passes _ (List.mem_of_getElem? hshort)]
    exact Bool.false_ne_true

/-- The nodes a trace that begins at a hop can find, the target among them in any case. -/
def nodesFrom (route : Route) (first : UInt8) : List Response :=
  (route.routers ++ [route.target]).drop (min (first.toNat - 1) route.routers.length)

theorem map_respond (route : Route) (hfirst : 1 ≤ first.toNat)
    (ht : t.toNat = max first.toNat route.distance) :
    (hopRange first t).map route.respond = route.nodesFrom first := by
  have hrespond : ∀ n ∈ List.range' first.toNat (t.toNat + 1 - first.toNat),
      (route.respond ∘ UInt8.ofNat) n = forward route.target route.routers n := by
    intro n hn
    have hlt := (List.mem_range'_1.mp hn).2
    have hlast : t.toNat < 256 := t.toNat_lt
    rw [Function.comp_apply, respond, UInt8.toNat_ofNat_of_lt' (by change n < 256; omega)]
  rw [hopRange, List.map_map, List.map_congr_left hrespond, nodesFrom, ht, distance]
  by_cases hpast : first.toNat ≤ route.routers.length
  · have hmax : max first.toNat (route.routers.length + 1) = route.routers.length + 1 := by omega
    have hmin : min (first.toNat - 1) route.routers.length = first.toNat - 1 := by omega
    have hcount : route.routers.length + 1 + 1 - first.toNat =
        route.routers.length + 1 - (first.toNat - 1) := by omega
    rw [hmax, hmin, hcount, ← map_forward (by omega), Nat.sub_add_cancel hfirst]
  · have hmax : max first.toNat (route.routers.length + 1) = first.toNat := by omega
    have hmin : min (first.toNat - 1) route.routers.length = route.routers.length := by omega
    rw [hmax, hmin, Nat.add_sub_cancel_left, List.drop_left]
    exact congrArg (· :: []) (forward_past (by omega))

/-- The results of a trace are what the route sends back. -/
def Explains (route : Route) (probes : List Probe) : Prop :=
  ∀ probe ∈ probes, ∀ result, probe.result = some result →
    result.source = (route.respond probe.ttl).source ∧
      result.kind = (route.respond probe.ttl).kind

theorem Explains.hopTerminates_iff {route : Route} (h : route.Explains probes)
    (ht : 1 ≤ t.toNat) :
    HopTerminates probes t ↔ route.distance ≤ t.toNat ∧ HopAnswered probes t := by
  rw [← route.respond_terminates ht]
  constructor
  · rintro ⟨probe, hmem, rfl, result, hresult, hkind⟩
    refine ⟨?_, probe, hmem, rfl, ?_⟩
    · rw [← (h probe hmem result hresult).2]
      exact hkind
    · rw [hresult]
      exact Option.some_ne_none _
  · rintro ⟨hkind, probe, hmem, rfl, hanswered⟩
    obtain ⟨result, hresult⟩ := Option.ne_none_iff_exists'.mp hanswered
    refine ⟨probe, hmem, rfl, result, hresult, ?_⟩
    rw [(h probe hmem result hresult).2]
    exact hkind

end Route

/-- The addresses that a line names, in order. -/
def Piece.source? : Piece → Option (Option IpAddr)
  | .source ip => some ip
  | _ => none

def Line.sources (line : Line) : List (Option IpAddr) := line.pieces.filterMap Piece.source?

/-- The addresses a report names, hop by hop. -/
def namesOf (report : List Line) : List (UInt8 × List (Option IpAddr)) :=
  report.map fun line => (line.ttl, line.sources)

theorem sources_printHopProbes {hop : List Probe} (previous : Option (Option IpAddr))
    (h : ∀ probe ∈ hop, ∀ result, probe.result = some result → result.source = ip) :
    (printHopProbes previous hop).filterMap Piece.source? =
      if hop.any Probe.answered = true ∧ previous ≠ some ip then [ip] else [] := by
  induction hop generalizing previous with
  | nil => rfl
  | cons probe hop ih =>
    have htail := fun previous => ih previous fun p hp => h p (List.mem_cons_of_mem _ hp)
    rw [printHopProbes]
    cases hr : probe.result with
    | none =>
      simp only [List.filterMap_cons, Piece.source?, htail, List.any_cons, Probe.answered, hr,
        Option.isSome_none, Bool.false_or]
    | some result =>
      obtain rfl := h probe List.mem_cons_self result hr
      by_cases hprevious : previous = some result.source
      · simp only [hprevious, ne_eq, not_true_eq_false, if_false, List.filterMap_cons,
          Piece.source?, htail, and_false]
      · simp only [hprevious, ne_eq, not_false_eq_true, if_true, List.filterMap_cons,
          Piece.source?, htail, not_true_eq_false, and_false, if_false, List.any_cons,
          Probe.answered, hr, Option.isSome_some, Bool.true_or, and_self]

/-- Whether the report of a trace over the route ends with the hop. -/
def Route.endsAt (route : Route) (probes : List Probe) (t : UInt8) : Bool :=
  decide (route.distance ≤ t.toNat) && (hopAt probes t).any Probe.answered

/-- What a hop is named by: the node the route answers from, if a probe of it is answered. -/
def Route.names (route : Route) (probes : List Probe) (t : UInt8) : List (Option IpAddr) :=
  if (hopAt probes t).any Probe.answered then [(route.respond t).source] else []

namespace Route.Explains

variable {route : Route} {probes : List Probe} {first last : UInt8} {count : UInt16}

theorem terminates_hopAt (h : route.Explains probes) (ht : 1 ≤ t.toNat) :
    terminates (hopAt probes t) = route.endsAt probes t := by
  rw [Bool.eq_iff_iff, hopAt_terminates, h.hopTerminates_iff ht, endsAt, Bool.and_eq_true,
    decide_eq_true_iff, hopAt_answered]

theorem sources_printHop (h : route.Explains probes) (t : UInt8) :
    (printHop (hopAt probes t)).sources = route.names probes t := by
  have hsource : ∀ probe ∈ hopAt probes t, ∀ result, probe.result = some result →
      result.source = (route.respond t).source := by
    intro probe hprobe result hresult
    obtain ⟨hmem, rfl⟩ := mem_hopAt.mp hprobe
    exact (h probe hmem result hresult).1
  rw [Line.sources, printHop, sources_printHopProbes none hsource, names]
  simp only [ne_eq, reduceCtorEq, not_false_eq_true, and_true]

theorem namesOf_printResults (h : route.Explains probes)
    (hlaid : Laid first last count probes) (hcount : 0 < count.toNat) (hfirst : 1 ≤ first.toNat) :
    namesOf (printResults probes) =
      (takeThrough (route.endsAt probes) (hopRange first last)).map
        fun t => (t, route.names probes t) := by
  have hends : takeThrough (fun t => terminates (hopAt probes t)) (hopRange first last) =
      takeThrough (route.endsAt probes) (hopRange first last) :=
    takeThrough_congr fun t ht =>
      h.terminates_hopAt (Nat.le_trans hfirst (mem_hopRange.mp ht).1)
  rw [namesOf, printResults, hlaid.hopsOf hcount, printHops_eq, takeThrough_map, List.map_map,
    List.map_map, hends]
  apply List.map_congr_left
  intro t ht
  have hmem : t ∈ probes.map Probe.ttl := by
    rw [hlaid]
    refine List.mem_flatMap.mpr ⟨t, takeThrough_subset ht, ?_⟩
    exact List.mem_replicate.mpr ⟨Nat.ne_of_gt hcount, rfl⟩
  exact Prod.ext (printHop_ttl hmem) (h.sources_printHop t)

/-- The hop that ends the trace is the target's, or the first where the trace begins behind it. -/
theorem terminated (h : route.Explains probes) (hfirst : 1 ≤ first.toNat)
    (ht : Terminated probes first t) (hmem : t ∈ hopRange first last) :
    t.toNat = max first.toNat route.distance := by
  have hle := (mem_hopRange.mp hmem).1
  have hdistance := ((h.hopTerminates_iff (Nat.le_trans hfirst hle)).mp ht.terminates).1
  refine Nat.le_antisymm ?_ (Nat.max_le.mpr ⟨hle, hdistance⟩)
  by_contra hlt
  have hlt : max first.toNat route.distance < t.toNat := Nat.not_le.mp hlt
  have hs : (UInt8.ofNat (max first.toNat route.distance)).toNat =
      max first.toNat route.distance :=
    UInt8.toNat_ofNat_of_lt' (Nat.lt_trans hlt t.toNat_lt)
  have hbefore : UInt8.ofNat (max first.toNat route.distance) ∈ hopRange first t := by
    rw [mem_hopRange, hs]
    exact ⟨Nat.le_max_left _ _, Nat.le_of_lt hlt⟩
  refine ht.earliest _ hbefore (fun he => ?_) ?_
  · rw [he] at hs
    exact Nat.lt_irrefl _ (hs ▸ hlt)
  · rw [h.hopTerminates_iff (by rw [hs]; exact Nat.le_trans hfirst (Nat.le_max_left _ _)), hs]
    exact ⟨Nat.le_max_right _ _, ht.answered _ hbefore⟩

theorem sources_terminated (h : route.Explains probes) (hlaid : Laid first last count probes)
    (hcount : 0 < count.toNat) (hfirst : 1 ≤ first.toNat) (ht : Terminated probes first t)
    (hmem : t ∈ hopRange first last) :
    (printResults probes).map Line.sources =
      (route.nodesFrom first).map fun response => [response.source] := by
  have hnames := h.namesOf_printResults hlaid hcount hfirst
  have hhops := congrArg (List.map Prod.fst) hnames
  rw [namesOf, List.map_map, List.map_map] at hhops
  have hprinted : takeThrough (route.endsAt probes) (hopRange first last) = hopRange first t :=
    (hhops.trans (List.map_id _)).symm.trans (hlaid.printedHops_terminated ht hmem)
  have hsources := congrArg (List.map Prod.snd) hnames
  rw [namesOf, List.map_map, List.map_map, hprinted] at hsources
  rw [← route.map_respond hfirst (h.terminated hfirst ht hmem), List.map_map]
  refine hsources.trans (List.map_congr_left fun s hs => ?_)
  change route.names probes s = _
  rw [names, if_pos (hopAt_answered.mpr (ht.answered s hs))]
  rfl

end Route.Explains

namespace RunArgs

variable {host : Host} {uring : RecvMsgOutApi host} {slab : SlabApi Outgoing} {args : RunArgs}

theorem Processes.explains {route : Route} {w : World slab} (h : args.Processes uring labels w)
    (hadmitted : args.Admitted)
    (hbuild : arg.build pnet system target packetLen = .ok args.method)
    (hover : args.Over arg uring route.network (completions labels)) :
    route.Explains w.run.probes := by
  intro probe hmem result hr
  obtain ⟨i, hi⟩ := List.mem_iff_getElem?.mp hmem
  obtain ⟨_, response, _, _, rfl, _, rfl⟩ := h.brought hadmitted hbuild hover hi hr
  exact ⟨rfl, rfl⟩

theorem Processes.hopAnswered {w : World slab} (h : args.Processes uring labels w)
    (ht : args.ttl? i = some t) (hr : resultOf uring i (completions labels) ≠ none) :
    HopAnswered w.run.probes t := by
  obtain ⟨probe, hp, _, hresult⟩ := h.specified_of_lt (ttl?_lt ht)
  have httl : probe.ttl = t := Option.some.inj ((h.ttl? hp).symm.trans ht)
  exact ⟨probe, List.mem_of_getElem? hp, httl, hresult ▸ hr⟩

theorem Admitted.first_pos (h : args.Admitted) : 1 ≤ args.first.toNat :=
  UInt8.le_iff_toNat_le.mp h.firstHop

/-- The report of a trace over a route, whenever the run comes to an end: it goes through the hops
in order up to the first at the distance of the target or behind it of which a probe is answered,
and names each of them by the one node that the route answers from, or not at all if no probe of it
is answered. -/
theorem Leaves.route_reported {route : Route} (h : args.Leaves uring slab labels probes)
    (hadmitted : args.Admitted)
    (hbuild : arg.build pnet system target packetLen = .ok args.method)
    (hover : args.Over arg uring route.network (completions labels)) :
    namesOf (printResults probes) =
      (takeThrough (route.endsAt probes) (hopRange args.first args.last)).map
        fun t => (t, route.names probes t) := by
  obtain ⟨w, hw, rfl⟩ := h.processes
  exact (hw.explains hadmitted hbuild hover).namesOf_printResults hw.laid hadmitted.count.1
    hadmitted.first_pos

/-- The way to the loopback address, which no router is on. -/
def loopbackRoute : Route where
  routers := []
  target := .answer (some (.v4 ⟨.localhost, 0⟩))
  passes _ h := absurd h List.not_mem_nil
  arrives := rfl

/-- The same behind a router at 10.0.0.1. -/
def routerRoute : Route :=
  { loopbackRoute with
    routers := [.error (some (.v4 ⟨⟨#v[10, 0, 0, 1]⟩, 0⟩)) (.v4 11 0 0)]
    passes := fun response h => by
      rw [List.mem_singleton.mp h]
      rfl }

/-- A TCP trace of three hops. -/
def routerTcp : RunArgs := { loopbackTcp with last := 3 }

theorem routerTcp_admitted : routerTcp.Admitted := ⟨by decide, by decide, by decide, by decide⟩

theorem routerTcp_build :
    MethodArg.tcp.build Pnet.layout loopbackSystem loopbackAddr 60 = .ok routerTcp.method := rfl

/-- The first two probes are sent, and answered by the router and by the target. -/
def routerAnswers (k : Nat) (o : Outgoing) (k' : Nat) (o' : Outgoing) : List (Sqe × Event) :=
  [(writeEntry k o, sent k o 7), (errReader.entry, expired.event .x86_64 9),
    (writeEntry k' o', sent k' o' 10), (recvReader.entry, (acknowledged 2).event .x86_64 11)]

theorem brings_expired : Brings routerTcp .tcp .x86_64 0
    (.error (some (.v4 ⟨⟨#v[10, 0, 0, 1]⟩, 0⟩)) (.v4 11 0 0))
    (errReader.entry, expired.event .x86_64 9) :=
  .error rfl expired [] routerError ⟨rfl, 0, rfl, rfl⟩ (fun _ hm => absurd hm List.not_mem_nil)
    (List.append_nil _).symm router_names expired_quotes

theorem brings_acknowledged : Brings routerTcp .tcp .x86_64 1
    (.answer (some (.v4 ⟨.localhost, 0⟩)))
    (recvReader.entry, (acknowledged 2).event .x86_64 11) :=
  .answer rfl (acknowledged 2) ⟨rfl, 0, rfl, rfl⟩ (EncodesSockaddr.of_parse rfl)
    (acknowledged_answers rfl)

theorem routerAnswers_over :
    routerTcp.Over .tcp (.layout .x86_64) routerRoute.network (routerAnswers k o k' o') :=
  List.forall_mem_cons.mpr ⟨.inl fun _ _ => rfl, List.forall_mem_cons.mpr
    ⟨.inr ⟨0, 1, _, rfl, rfl, brings_expired⟩, List.forall_mem_cons.mpr
      ⟨.inl fun _ _ => rfl, List.forall_mem_singleton.mpr
        (.inr ⟨1, 2, _, rfl, rfl, brings_acknowledged⟩)⟩⟩⟩

/-- The same and the third send. -/
def routerLabels (k : Nat) (o : Outgoing) (k' : Nat) (o' : Outgoing) (k'' : Nat)
    (o'' : Outgoing) : List Label :=
  script (routerAnswers k o k' o') ++ [.complete (writeEntry k'' o'') (sent k'' o'' 12)]

theorem completions_routerLabels : completions (routerLabels k o k' o' k'' o'') =
    routerAnswers k o k' o' ++ [(writeEntry k'' o'', sent k'' o'' 12)] := rfl

theorem routerLabels_over : routerTcp.Over .tcp (.layout .x86_64) routerRoute.network
    (completions (routerLabels k o k' o' k'' o'')) := by
  rw [completions_routerLabels]
  exact List.forall_mem_append.mpr
    ⟨routerAnswers_over, List.forall_mem_singleton.mpr (.inl fun _ _ => rfl)⟩

theorem router_answered {w : World slab} (ho : o.probe.index = 0) (ho' : o'.probe.index = 1)
    (h : routerTcp.Processes (.layout .x86_64) labels w)
    (hlabels : completions labels = routerAnswers k o k' o' ++ later) :
    ∀ s ∈ hopRange 1 2, HopAnswered w.run.probes s := by
  obtain ⟨after, hfirst⟩ : ∃ after, fromWrite 0 (completions labels) =
      some (sent k o 7, (errReader.entry, expired.event .x86_64 9) :: after) := by
    rw [hlabels]
    exact ⟨_, if_pos (congrArg some ho)⟩
  have hother : ¬ (writeEntry k o).probe? = some 1 := by
    rw [writeEntry_probe?, ho]
    decide
  have hread : ¬ errReader.entry.probe? = some 1 := (Option.some_ne_none 1).symm
  obtain ⟨after', hsecond⟩ : ∃ after, fromWrite 1 (completions labels) =
      some (sent k' o' 10, (recvReader.entry, (acknowledged 2).event .x86_64 11) :: after) := by
    rw [hlabels]
    exact ⟨_, (if_neg hother).trans ((if_neg hread).trans (if_pos (congrArg some ho')))⟩
  intro s hs
  rcases List.mem_cons.mp hs with rfl | hs
  · refine h.hopAnswered rfl (resultOf_ne_none_iff.mpr ⟨?_, _, _, hfirst, _, List.mem_cons_self,
      brings_expired.answer?_ne_none routerTcp_admitted routerTcp_build (by decide)⟩)
    rw [sentAtOf, hfirst]
    exact Option.some_ne_none 7
  · obtain rfl := List.mem_singleton.mp hs
    refine h.hopAnswered rfl (resultOf_ne_none_iff.mpr ⟨?_, _, _, hsecond, _, List.mem_cons_self,
      brings_acknowledged.answer?_ne_none routerTcp_admitted routerTcp_build (by decide)⟩)
    rw [sentAtOf, hsecond]
    exact Option.some_ne_none 10

/-- The run in which this happens, before and after its third send. -/
theorem router_run :
    ∃ k o k' o' k'' o'', ∃ w w' : World (.vec Outgoing),
      routerTcp.Reaches (.layout .x86_64) (script (routerAnswers k o k' o')) w ∧
      (∀ s ∈ hopRange 1 2, HopAnswered w.run.probes s) ∧
      Proceeds (.layout .x86_64) (routerTcp.readers .x86_64) w
        (.complete (writeEntry k'' o'') (sent k'' o'' 12)) w' ∧
      routerTcp.AllSent (routerLabels k o k' o' k'' o'') ∧
      ∀ s ∈ hopRange 1 2, HopAnswered w'.run.probes s := by
  obtain ⟨st, m₀, m₁, rest, h⟩ := routerTcp.submitted (.layout .x86_64) (.vec Outgoing) (by decide)
  obtain ⟨k, o, hmem, ho⟩ := h.writes 0 (by decide)
  obtain ⟨k', o', hmem', ho'⟩ := h.writes 1 (by decide)
  obtain ⟨k'', o'', hmem'', ho''⟩ := h.writes 2 (by decide)
  have hexpired : Scripted (routerTcp.readers .x86_64) rest
      (errReader.entry, expired.event .x86_64 9) :=
    .read (List.mem_cons_of_mem _ List.mem_cons_self) rfl rfl
      fun _ => ⟨0, expired.bytes .x86_64, rfl, rfl, rfl, by decide⟩
  have hacknowledged : Scripted (routerTcp.readers .x86_64) rest
      (recvReader.entry, (acknowledged 2).event .x86_64 11) :=
    .read List.mem_cons_self rfl rfl
      fun _ => ⟨0, (acknowledged 2).bytes .x86_64, rfl, rfl, rfl, by decide⟩
  have hwritten : written (routerAnswers k o k' o') = [0, 1] := by
    rw [← ho, ← ho']
    rfl
  obtain ⟨w, hphase, hreach, hkeep⟩ := h.script (List.forall_mem_cons.mpr ⟨.send 7 hmem,
      List.forall_mem_cons.mpr ⟨hexpired, List.forall_mem_cons.mpr ⟨.send 10 hmem',
        List.forall_mem_singleton.mpr hacknowledged⟩⟩⟩)
    (hwritten ▸ by decide) ⟨2, by decide, hwritten ▸ by decide⟩
  have hflight := hkeep _ (h.mem_rest hmem'') fun i hi => by
    rw [writeEntry_probe?, ho'']
    rintro ⟨⟩
    exact absurd (hwritten ▸ hi) (by decide)
  obtain ⟨i, hi⟩ := List.mem_iff_getElem?.mp hflight
  obtain ⟨st', failed, hok⟩ := hreach.processes.sends hi 12
  have hstep : Proceeds (.layout .x86_64) (routerTcp.readers .x86_64) w _ _ :=
    .at i hphase hi rfl hok
  refine ⟨k, o, k', o', k'', o'', w, _, hreach,
    router_answered ho ho' hreach.processes (List.append_nil _).symm, hstep, ?_,
    router_answered ho ho' (hreach.processes.step hstep) rfl⟩
  have hall : written (completions (routerLabels k o k' o' k'' o'')) = [0, 1, 2] := by
    rw [← ho, ← ho', ← ho'']
    rfl
  intro i hi
  rw [hall]
  exact List.mem_range.mpr hi

/-- A trace that has heard of its first two hops, while the probe of the third is being sent. -/
theorem route_reported_loopback :
    ∃ labels probes, routerTcp.Leaves (.layout .x86_64) (.vec Outgoing) labels probes ∧
      routerRoute.endsAt probes 2 = true ∧
      namesOf (printResults probes) =
        [(1, [some (.v4 ⟨#v[10, 0, 0, 1]⟩)]), (2, [some (.v4 .localhost)])] := by
  obtain ⟨k, o, k', o', _, _, w, _, hreach, hanswered, _⟩ := router_run
  have h := hreach.leaves
  have hfirst := hopAt_answered.mpr (hanswered 1 (by decide))
  have hsecond := hopAt_answered.mpr (hanswered 2 (by decide))
  have hends : routerRoute.endsAt w.run.probes 2 = true := hsecond
  have hgoes : ¬ routerRoute.endsAt w.run.probes 1 = true := Bool.false_ne_true
  refine ⟨_, w.run.probes, h, hends, ?_⟩
  have hhops : hopRange routerTcp.first routerTcp.last = [1, 2, 3] := rfl
  rw [h.route_reported routerTcp_admitted routerTcp_build routerAnswers_over, hhops, takeThrough,
    if_neg hgoes, takeThrough, if_pos hends]
  simp only [List.map_cons, List.map_nil, Route.names, if_pos hfirst, if_pos hsecond]
  rfl

/-- A trace finds its route. A run that returns on a completion other than the timeout reports the
nodes in the order of the route, each on a line of its own and under its address, and ends with the
target, however far behind it the trace begins. It returns on the first completion after which every
probe is sent and every hop up to there has an answer. -/
theorem Reaches.route_found {route : Route} {w : World slab} (h : args.Reaches uring labels w)
    (hadmitted : args.Admitted)
    (hbuild : arg.build pnet system target packetLen = .ok args.method)
    (hover : args.Over arg uring route.network (completions (labels ++ [.complete entry event])))
    (htimeout : ∀ d, entry ≠ timeoutEntry d) :
    (∀ returned probes, Exits uring (args.readers host) w (.complete entry event) returned →
      returned.exit = .ok probes →
      ∃ t : UInt8, t.toNat = max args.first.toNat route.distance ∧ t ≤ args.last ∧
        printedHops probes = hopRange args.first t ∧
        (printResults probes).map Line.sources =
          (route.nodesFrom args.first).map fun response => [response.source]) ∧
    ∀ w' : World slab, Proceeds uring (args.readers host) w (.complete entry event) w' →
      (Exits uring (args.readers host) w (.complete entry event) ⟨.ok w'.run.probes, w'.run⟩ ↔
        args.AllSent (labels ++ [.complete entry event]) ∧
        ∃ t : UInt8, t.toNat = max args.first.toNat route.distance ∧ t ≤ args.last ∧
          ∀ s ∈ hopRange args.first t, HopAnswered w'.run.probes s) := by
  constructor
  · intro returned probes hexit hok
    obtain ⟨u, hu, rfl, hcomplete⟩ := h.exits_done hexit hok fun d event' hlabel =>
      htimeout d (Label.complete.inj hlabel).1
    obtain ⟨t, hmem, ht⟩ := hu.laid.terminated (Bool.and_eq_true_iff.mp hcomplete).2
    have hexplains := hu.explains hadmitted hbuild hover
    exact ⟨t, hexplains.terminated hadmitted.first_pos ht hmem,
      UInt8.le_iff_toNat_le.mpr (mem_hopRange.mp hmem).2,
      hu.laid.printedHops_terminated ht hmem,
      hexplains.sources_terminated hu.laid hadmitted.count.1 hadmitted.first_pos ht hmem⟩
  · intro w' hstep
    have hw := h.processes.step hstep
    have hexplains := hw.explains hadmitted hbuild hover
    constructor
    · intro hexit
      obtain ⟨u, hu, hprobes, hcomplete⟩ := h.exits_done hexit rfl fun d event' hlabel =>
        htimeout d (Label.complete.inj hlabel).1
      obtain ⟨t, hmem, ht⟩ := hu.laid.terminated (Bool.and_eq_true_iff.mp hcomplete).2
      rw [hprobes] at ht
      exact ⟨(hu.complete_iff.mp hcomplete).1, t,
        hexplains.terminated hadmitted.first_pos ht hmem,
        UInt8.le_iff_toNat_le.mpr (mem_hopRange.mp hmem).2, ht.answered⟩
    · rintro ⟨hsent, t, ht, hle, hanswered⟩
      have hfirst : args.first.toNat ≤ t.toNat := ht ▸ Nat.le_max_left _ _
      have hlast : t ∈ hopRange args.first t := mem_hopRange.mpr ⟨hfirst, Nat.le_refl _⟩
      have hterm : HopTerminates w'.run.probes t :=
        (hexplains.hopTerminates_iff (Nat.le_trans hadmitted.first_pos hfirst)).mpr
          ⟨ht ▸ Nat.le_max_right _ _, hanswered t hlast⟩
      refine (h.completes hstep).1 (hw.complete_iff.mpr ⟨hsent, t, ?_, hterm, hanswered⟩)
      exact mem_hopRange.mpr ⟨hfirst, UInt8.le_iff_toNat_le.mp hle⟩

/-- The trace ends on its third send, and names the router and the target in their order. -/
theorem route_found_loopback :
    ∃ labels probes, ∃ returned : Returned (.vec Outgoing),
      routerTcp.Ends (.layout .x86_64) labels returned ∧ returned.exit = .ok probes ∧
      (printResults probes).map Line.sources =
        [[some (.v4 ⟨#v[10, 0, 0, 1]⟩)], [some (.v4 .localhost)]] := by
  obtain ⟨k, o, k', o', k'', o'', w, w', h, _, hstep, hsent, hanswered⟩ := router_run
  have hfound := h.route_found routerTcp_admitted routerTcp_build routerLabels_over
    fun d => writeEntry_ne_timeoutEntry k'' o'' d
  have hexit := (hfound.2 w' hstep).mpr ⟨hsent, 2, rfl, by decide, hanswered⟩
  obtain ⟨_, _, _, _, hsources⟩ := hfound.1 _ _ hexit rfl
  exact ⟨_, _, _, h.ends hexit, rfl, hsources⟩

end RunArgs

end Ringroute
