import Mathlib.Data.List.Forall2
import Ringroute.HopLine

namespace Ringroute
open Library
set_option autoImplicit true

/-- An entry of a report stands as it was, or tells of a probe of which nothing was told. -/
def Fills (entry entry' : Option α) : Prop := entry = none ∨ entry = entry'

/-- What a probe becomes as a trace goes on. -/
structure Probe.Fills (probe probe' : Probe) : Prop where
  ttl : probe.ttl = probe'.ttl
  result : Ringroute.Fills probe.result probe'.result

/-- A line tells all that another does, of the same hop, and perhaps more. -/
def Line.Fills (line line' : Line) : Prop :=
  line.ttl = line'.ttl ∧ ∃ entries entries', readHop line.pieces = some entries ∧
    readHop line'.pieces = some entries' ∧ List.Forall₂ Ringroute.Fills entries entries'

section Lines

variable {hop hop' probes probes' : List Probe} {first last : UInt8} {count : UInt16}

theorem Probe.Fills.shown {probe probe' : Probe} (h : probe.Fills probe') :
    Ringroute.Fills probe.shown probe'.shown := by
  rcases h.result with hnone | hsame
  · exact .inl (by rw [Probe.shown, hnone]; rfl)
  · exact .inr (by rw [Probe.shown, Probe.shown, hsame])

theorem map_ttl_eq (h : List.Forall₂ Probe.Fills hop hop') :
    hop.map Probe.ttl = hop'.map Probe.ttl := by
  rw [← List.forall₂_eq_eq_eq, List.forall₂_map_left_iff, List.forall₂_map_right_iff]
  exact h.imp fun _ _ hp => hp.ttl

theorem printHop_fills (h : List.Forall₂ Probe.Fills hop hop') :
    (printHop hop).Fills (printHop hop') := by
  refine ⟨congrArg (List.headD · 0) (map_ttl_eq h), _, _, readHop_printHopProbes hop,
    readHop_printHopProbes hop', ?_⟩
  rw [List.forall₂_map_left_iff, List.forall₂_map_right_iff]
  exact h.imp fun _ _ hp => hp.shown

theorem terminates_fills (h : List.Forall₂ Probe.Fills hop hop') (ht : terminates hop = true) :
    terminates hop' = true := by
  rw [terminates_iff] at ht ⊢
  induction h with
  | nil => exact ht
  | @cons probe probe' hop hop' hp _ ih =>
    obtain ⟨ended, hmem, result, hresult, hkind⟩ := ht
    rcases List.mem_cons.mp hmem with rfl | hmem
    · refine ⟨probe', List.mem_cons_self, result, ?_, hkind⟩
      rcases hp.result with hnone | hsame
      · rw [hresult] at hnone
        cases hnone
      · exact hsame ▸ hresult
    · obtain ⟨found, hfound, hends⟩ := ih ⟨ended, hmem, result, hresult, hkind⟩
      exact ⟨found, List.mem_cons_of_mem _ hfound, hends⟩

theorem hopAt_fills (h : List.Forall₂ Probe.Fills probes probes') (t : UInt8) :
    List.Forall₂ Probe.Fills (hopAt probes t) (hopAt probes' t) := by
  refine List.rel_filter ?_ h
  intro probe probe' hp
  dsimp only
  rw [hp.ttl]

theorem Laid.printResults_eq (h : Laid first last count probes) (hcount : 0 < count.toNat) :
    printResults probes =
      (takeThrough (fun t => terminates (hopAt probes t)) (hopRange first last)).map
        fun t => printHop (hopAt probes t) := by
  rw [printResults, h.hopsOf hcount, printHops_eq, takeThrough_map, List.map_map]
  rfl

/-- With more results, the report has the same lines with more told, and fewer of them only if it
ends with a hop that did not end it before. -/
theorem Laid.report_fills (h : Laid first last count probes) (h' : Laid first last count probes')
    (hfills : List.Forall₂ Probe.Fills probes probes') :
    ∃ kept dropped, printResults probes = kept ++ dropped ∧
      List.Forall₂ Line.Fills kept (printResults probes') ∧
      (dropped ≠ [] → ∃ t, (printedHops probes').getLast? = some t ∧
        HopTerminates probes' t ∧ ¬ HopTerminates probes t) := by
  rcases Nat.eq_zero_or_pos count.toNat with hcount | hcount
  · obtain rfl := h.nil hcount
    obtain rfl := h'.nil hcount
    exact ⟨[], [], rfl, .nil, fun hne => absurd rfl hne⟩
  · have hlines (ts : List UInt8) :
        List.Forall₂ Line.Fills (ts.map fun t => printHop (hopAt probes t))
          (ts.map fun t => printHop (hopAt probes' t)) := by
      rw [List.forall₂_map_left_iff, List.forall₂_map_right_iff, List.forall₂_same]
      exact fun t _ => printHop_fills (hopAt_fills hfills t)
    have hkept : ∀ t ∈ hopRange first last, terminates (hopAt probes t) = true →
        terminates (hopAt probes' t) = true :=
      fun t _ ht => terminates_fills (hopAt_fills hfills t) ht
    rw [h.printResults_eq hcount, h'.printResults_eq hcount, h'.printedHops_eq hcount]
    rcases takeThrough_stops hkept with hsame | ⟨front, t, back, hfull, hcut, hopen, hends⟩
    · refine ⟨_, [], (List.append_nil _).symm, ?_, fun hne => absurd rfl hne⟩
      rw [hsame]
      exact hlines _
    · refine ⟨(front ++ [t]).map fun t => printHop (hopAt probes t),
        back.map fun t => printHop (hopAt probes t), ?_, ?_, ?_⟩
      · rw [hfull, List.append_cons, List.map_append]
      · rw [hcut]
        exact hlines _
      · intro _
        refine ⟨t, ?_, hopAt_terminates.mp hends, ?_⟩
        · rw [hcut, List.getLast?_concat]
        · intro hc
          rw [hopAt_terminates.mpr hc] at hopen
          cases hopen

end Lines

namespace RunArgs

variable {host : Host} {uring : RecvMsgOutApi host} {slab : SlabApi Outgoing} {args : RunArgs}

theorem Processes.fills {w w' : World slab} (h : args.Processes uring labels w)
    (h' : args.Processes uring (labels ++ more) w') :
    List.Forall₂ Probe.Fills w.run.probes w'.run.probes := by
  refine List.forall₂_iff_get.mpr ⟨by rw [h.length_probes, h'.length_probes], ?_⟩
  intro i hi hi'
  have hprobe := h.probes i
  have hprobe' := h'.probes i
  rw [List.getElem?_eq_getElem hi] at hprobe
  rw [List.getElem?_eq_getElem hi', completions_append] at hprobe'
  obtain ⟨initial, hinitial, hbefore⟩ := Option.map_eq_some_iff.mp hprobe.symm
  rw [hinitial, Option.map_some, List.foldl_append, hbefore] at hprobe'
  rw [List.get_eq_getElem, List.get_eq_getElem, Option.some.inj hprobe']
  refine ⟨(foldl_ttl _ _).symm, ?_⟩
  cases hresult : w.run.probes[i].result with
  | none => exact .inl rfl
  | some result => exact .inr (foldl_result hresult).symm

/-- A report only fills in. The lines of a later report have stood in the earlier one, with the same
told of every probe that was answered by then; and those that are missing stood behind a hop that
ends the trace now and did not before. -/
theorem Leaves.report_grows (h : args.Leaves uring slab labels probes)
    (h' : args.Leaves uring slab (labels ++ more) probes') :
    ∃ kept dropped, printResults probes = kept ++ dropped ∧
      List.Forall₂ Line.Fills kept (printResults probes') ∧
      (dropped ≠ [] → ∃ t, (printedHops probes').getLast? = some t ∧
        HopTerminates probes' t ∧ ¬ HopTerminates probes t) := by
  obtain ⟨w, hw, rfl⟩ := h.processes
  obtain ⟨w', hw', rfl⟩ := h'.processes
  exact hw.laid.report_fills hw'.laid (hw.fills hw')

/-- The second hop is reported until the reply to the first probe comes. -/
theorem report_grows_loopback :
    ∃ labels more probes probes',
      (loopback 1 2 1).Leaves (.layout .x86_64) (.vec Outgoing) labels probes ∧
      (loopback 1 2 1).Leaves (.layout .x86_64) (.vec Outgoing) (labels ++ more) probes' ∧
      printedHops probes = [1, 2] ∧ printedHops probes' = [1] ∧
      ∃ t, HopTerminates probes' t ∧ ¬ HopTerminates probes t := by
  obtain ⟨k, o, ho, ⟨w', hreach', _⟩, _⟩ := loopback_orders 7 9
  have ⟨st, hstart, hpath⟩ := hreach'
  change Path _ _ ([Label.submit .ok] ++ [_, _]) _ at hpath
  obtain ⟨w, hpath, _⟩ := hpath.split
  have hreach : (loopback 1 2 1).Reaches (.layout .x86_64) [.submit .ok] w := ⟨st, hstart, hpath⟩
  have hinitial : w.run.probes = (loopback 1 2 1).initialProbes := by
    apply List.ext_getElem?
    intro i
    rw [hreach.processes.probes]
    exact Option.map_id_apply
  have hbefore : printedHops w.run.probes = [1, 2] := by
    rw [hinitial]
    decide
  have hends : HopTerminates w'.run.probes 1 :=
    ⟨_, List.mem_of_getElem? (hreach'.processes.specified 0), rfl, _, resultOf_loopback ho [], rfl⟩
  have hone (s : UInt8) (hs : s ∈ hopRange 1 1) : s = 1 := List.mem_singleton.mp hs
  have hafter : printedHops w'.run.probes = [1] :=
    hreach'.processes.laid.printedHops_terminated
      ⟨hends, fun s hs hne => absurd (hone s hs) hne, fun s hs => hone s hs ▸ hends.answered⟩
      (by decide)
  obtain ⟨kept, dropped, hlines, hkept, hdropped⟩ := hreach.leaves.report_grows hreach'.leaves
  have hne : dropped ≠ [] := by
    rintro rfl
    rw [List.append_nil] at hlines
    have hlen : (printedHops w.run.probes).length = (printedHops w'.run.probes).length := by
      rw [printedHops, printedHops, List.length_map, List.length_map, hlines]
      exact hkept.length_eq
    rw [hbefore, hafter] at hlen
    cases hlen
  obtain ⟨t, _, ht, hnot⟩ := hdropped hne
  exact ⟨_, _, _, _, hreach.leaves, hreach'.leaves, hbefore, hafter, t, ht, hnot⟩

end RunArgs

end Ringroute
