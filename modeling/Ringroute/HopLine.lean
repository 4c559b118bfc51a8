import Ringroute.Library.Labels
import Ringroute.Report

namespace Ringroute
open Library
set_option autoImplicit true

/-- What a line tells of an answered probe: its source, and its round-trip time and annotation. -/
def Probe.shown (probe : Probe) : Option (Option IpAddr × Duration × Option Unreachable) :=
  probe.result.map fun result => (result.source, result.rtt, result.kind.failure)

/-- The source of the last answered probe. -/
def lastSource (hop : List Probe) : Option (Option IpAddr) :=
  (hop.filterMap Probe.result).getLast?.map ProbeResult.source

/-- What is written for a probe after one with the previous source. -/
def Probe.pieces (previous : Option (Option IpAddr)) (probe : Probe) : List Piece :=
  match probe.result with
  | some result =>
    if previous ≠ some result.source then
      [.source result.source, .result result.rtt result.kind.failure]
    else [.result result.rtt result.kind.failure]
  | none => [.star]

/-- A source labels the results after it. -/
def Piece.token : Piece → Token (Option IpAddr) (Duration × Option Unreachable)
  | .source ip => .label ip
  | .result rtt failure => .value (rtt, failure)
  | .star => .gap

/-- Read a line from left to right: a result has the latest source before it. -/
def readHop (pieces : List Piece) :
    Option (List (Option (Option IpAddr × Duration × Option Unreachable))) :=
  readTokens none (pieces.map Piece.token)

theorem Piece.token_injective : Function.Injective Piece.token := by
  intro a b h
  cases a <;> cases b <;> cases h <;> rfl

theorem lastLabel_shown (hop : List Probe) :
    lastLabel (hop.map Probe.shown) = lastSource hop := by
  have hshown : (hop.map Probe.shown).reduceOption = (hop.filterMap Probe.result).map
      fun result => (result.source, result.rtt, result.kind.failure) := by
    rw [List.reduceOption, List.filterMap_map, List.map_filterMap]
    rfl
  rw [lastLabel, hshown, List.getLast?_map, Option.map_map]
  rfl

theorem Probe.pieces_token (previous : Option (Option IpAddr)) (probe : Probe) :
    (probe.pieces previous).map Piece.token = tokensOf previous probe.shown := by
  unfold Probe.pieces Probe.shown
  cases probe.result with
  | none => rfl
  | some result =>
    by_cases hprevious : previous = some result.source
    · simp [tokensOf, Piece.token, hprevious]
    · simp [tokensOf, Piece.token, hprevious]

theorem printHopProbes_cons (previous : Option (Option IpAddr)) (probe : Probe)
    (hop : List Probe) :
    printHopProbes previous (probe :: hop) =
      probe.pieces previous ++ printHopProbes ((lastSource [probe]).or previous) hop := by
  rw [printHopProbes, Probe.pieces, lastSource, List.filterMap_cons]
  cases probe.result with
  | none => rfl
  | some result =>
    by_cases hprevious : previous = some result.source
    · simp [hprevious]
    · simp [hprevious]

theorem printHopProbes_token (previous : Option (Option IpAddr)) (hop : List Probe) :
    (printHopProbes previous hop).map Piece.token =
      writeTokens previous (hop.map Probe.shown) := by
  induction hop generalizing previous with
  | nil => rfl
  | cons probe hop ih =>
    rw [printHopProbes_cons, List.map_append, ih, Probe.pieces_token, List.map_cons, writeTokens,
      ← lastLabel_shown]
    rfl

theorem readHop_printHopProbes (hop : List Probe) :
    readHop (printHopProbes none hop) = some (hop.map Probe.shown) := by
  rw [readHop, printHopProbes_token, readTokens_writeTokens]

theorem printHopProbes_append (previous : Option (Option IpAddr)) (before after : List Probe) :
    printHopProbes previous (before ++ after) =
      printHopProbes previous before ++ printHopProbes ((lastSource before).or previous) after := by
  apply Piece.token_injective.list_map
  rw [List.map_append, printHopProbes_token, printHopProbes_token, printHopProbes_token,
    List.map_append, writeTokens_append, lastLabel_shown]

theorem result_mem_printHopProbes {rtt : Duration} {failure : Option Unreachable}
    {previous : Option (Option IpAddr)}
    (h : .result rtt failure ∈ printHopProbes previous hop) :
    ∃ probe ∈ hop, ∃ result, probe.result = some result ∧ result.rtt = rtt ∧
      result.kind.failure = failure := by
  induction hop generalizing previous with
  | nil => exact absurd h List.not_mem_nil
  | cons probe hop ih =>
    rw [printHopProbes_cons] at h
    rcases List.mem_append.mp h with h | h
    · refine ⟨probe, List.mem_cons_self, ?_⟩
      unfold Probe.pieces at h
      cases hr : probe.result with
      | none => simp [hr] at h
      | some result =>
        have hpiece : Piece.result rtt failure = .result result.rtt result.kind.failure := by
          simp only [hr] at h
          split at h <;> simpa using h
        cases hpiece
        exact ⟨result, rfl, rfl, rfl⟩
    · obtain ⟨probe', hmem, hprinted⟩ := ih h
      exact ⟨probe', List.mem_cons_of_mem _ hmem, hprinted⟩

/-- A printed line is unambiguous. Reading it gives back what was printed of every probe of the hop;
no result stands before the first source; and a source is written for a probe exactly when the
answered probe before it had another, or there was none. -/
theorem hop_line_unambiguous (hop : List Probe) :
    readHop (printHopProbes none hop) = some (hop.map Probe.shown) ∧
    (∀ front rtt failure back, printHopProbes none hop = front ++ .result rtt failure :: back →
      ∃ ip, .source ip ∈ front) ∧
    ∀ before probe after, hop = before ++ probe :: after →
      printHopProbes none hop =
        printHopProbes none before ++ probe.pieces (lastSource before) ++
          printHopProbes (lastSource (before ++ [probe])) after := by
  refine ⟨readHop_printHopProbes hop, ?_, ?_⟩
  · intro front rtt failure back h
    have hread := readHop_printHopProbes hop
    rw [h, readHop, List.map_append, List.map_cons] at hread
    obtain ⟨ip, hip⟩ := label_before_value (Option.isSome_of_eq_some hread)
    change (Piece.source ip).token ∈ front.map Piece.token at hip
    exact ⟨ip, (List.mem_map_of_injective Piece.token_injective).mp hip⟩
  · rintro before probe after rfl
    have hfirst := printHopProbes_append none before [probe]
    rw [printHopProbes_cons, Option.or_none, printHopProbes, List.append_nil] at hfirst
    rw [List.append_cons, printHopProbes_append, hfirst, Option.or_none]

example : printHopProbes none [⟨1, some 0, some ⟨none, 2, .hop⟩⟩, ⟨1, some 1, none⟩,
    ⟨1, some 2, some ⟨none, 3, .hop⟩⟩] =
    [.source none, .result 2 none, .star, .result 3 none] := by decide

end Ringroute
