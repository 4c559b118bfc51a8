import Ringroute.Annotations
import Ringroute.HopLine
import Ringroute.Net.Display

namespace Ringroute
open Library
set_option autoImplicit true

/-- How round-trip times are printed in milliseconds to three places: with digits and a point. -/
structure MsFormat where
  display : Duration → String
  ne_empty : ∀ rtt, (display rtt).toList ≠ []
  digits : ∀ rtt, ∀ c ∈ (display rtt).toList, c = '.' ∨ ∃ d < 10, c = d.digitChar

/-- `n / d` to the nearest integer, the even one if two are as near. -/
def roundEven (n d : Nat) : Nat :=
  if 2 * (n % d) < d ∨ 2 * (n % d) = d ∧ n / d % 2 = 0 then n / d else n / d + 1

/-- A finite `f64` that is not negative, in units of the least one there is. -/
structure F64 where
  units : Nat
  deriving DecidableEq, Repr

namespace F64

def one : Nat := 2 ^ 1074

/-- The `f64` nearest to `n / d` units, of which it keeps 53 bits. -/
def nearest (n d : Nat) : F64 :=
  let ulp := 2 ^ ((n / d).log2 - 52)
  ⟨roundEven n (d * ulp) * ulp⟩

def ofNat (n : Nat) : F64 := nearest (n * one) 1
def add (a b : F64) : F64 := nearest (a.units + b.units) 1
def mul (a b : F64) : F64 := nearest (a.units * b.units) one
def div (a b : F64) : F64 := nearest (a.units * one) b.units

end F64

def asSecsF64 (duration : Duration) : F64 :=
  (F64.ofNat (duration / 10 ^ 9)).add ((F64.ofNat (duration % 10 ^ 9)).div (.ofNat (10 ^ 9)))

/-- The `{:.3}` of `as_secs_f64() * 1000.0`. -/
def MsFormat.std : MsFormat where
  display rtt :=
    let ms := (asSecsF64 rtt).mul (.ofNat 1000)
    let thousandths := roundEven (ms.units * 1000) F64.one
    String.ofList (Nat.toDigits 10 (thousandths / 1000) ++
      '.' :: List.leftpad 3 '0' (Nat.toDigits 10 (thousandths % 1000)))
  ne_empty rtt := by
    rw [String.toList_ofList]
    exact List.append_ne_nil_of_right_ne_nil _ (List.cons_ne_nil _ _)
  digits rtt c hc := by
    rw [String.toList_ofList] at hc
    rcases List.mem_append.mp hc with hc | hc
    · exact .inr (mem_toDigits (by decide) hc)
    · rcases List.mem_cons.mp hc with rfl | hc
      · exact .inl rfl
      · rcases List.mem_append.mp hc with hc | hc
        · exact .inr ⟨0, by decide, List.eq_of_mem_replicate hc⟩
        · exact .inr (mem_toDigits (by decide) hc)

/-- A source of a line, which may be unknown. -/
def sourceText : Option IpAddr → String
  | some source => source.display
  | none => "?"

section Display

variable (ms : MsFormat)

/-- A result, with the annotation of a failed delivery. -/
def resultText (rtt : Duration) (failure : Option Unreachable) : String :=
  ms.display rtt ++ " ms" ++ match failure with
    | some annotation => "  " ++ annotation.display
    | none => ""

def Piece.display : Piece → String
  | .source ip => "  " ++ sourceText ip
  | .result rtt failure => "  " ++ resultText ms rtt failure
  | .star => "  *"

/-- The text of a line, the hop limit padded to two places. -/
def Line.display (line : Line) : String :=
  String.ofList (List.leftpad 2 ' ' (toString line.ttl).toList) ++
    String.join (line.pieces.map (Piece.display ms)) ++ "\n"

def reportText (lines : List Line) : String := String.join (lines.map (Line.display ms))

end Display

/-- A word of a line, by what it starts with. -/
inductive Word where
  | star
  | unit
  | failure (text : String)
  | text (text : String)
  deriving DecidableEq, Repr

def Word.lex (word : List Char) : Word :=
  if word = ['*'] then .star
  else if word = ['m', 's'] then .unit
  else if word.head? = some '!' then .failure (String.ofList word)
  else .text (String.ofList word)

/-- The sources, results and stars that words spell. -/
def readWords : List Word → Option (List (Token String (String × Option String)))
  | [] => some []
  | .star :: words => (readWords words).map (.gap :: ·)
  | .text rtt :: .unit :: .failure annotation :: words =>
    (readWords words).map (.value (rtt, some annotation) :: ·)
  | .text rtt :: .unit :: words => (readWords words).map (.value (rtt, none) :: ·)
  | .text source :: words => (readWords words).map (.label source :: ·)
  | _ => none

/-- What is read of a probe: its source, time and annotation, if it has been answered. -/
abbrev Told := Option (String × String × Option String)

def readLine (line : List Char) : Option (Nat × List Told) :=
  match words ' ' line with
  | [] => none
  | ttl :: rest => do
    let tokens ← readWords (rest.map Word.lex)
    let probes ← readTokens none tokens
    return (Nat.ofDigitChars 10 ttl 0, probes)

/-- Read a report, line by line. -/
def readReport (text : String) : Option (List (Nat × List Told)) :=
  (text.toList.splitOn '\n').dropLast.mapM readLine

section Words

theorem AddrChar.ne (h : AddrChar c) :
    c ≠ ' ' ∧ c ≠ '\n' ∧ c ≠ '*' ∧ c ≠ 'm' ∧ c ≠ '!' ∧ c ≠ '?' := by
  rcases h with rfl | rfl | ⟨d, hd, rfl⟩
  · decide
  · decide
  · revert d
    decide

/-- A word that is read as the text it is. -/
structure Plain (text : String) : Prop where
  ne_nil : text.toList ≠ []
  chars : ∀ c ∈ text.toList, c ≠ ' ' ∧ c ≠ '\n' ∧ c ≠ '*' ∧ c ≠ 'm' ∧ c ≠ '!'

theorem Plain.not_mem (h : Plain text) : ' ' ∉ text.toList ∧ '\n' ∉ text.toList :=
  ⟨fun hc => (h.chars _ hc).1 rfl, fun hc => (h.chars _ hc).2.1 rfl⟩

theorem Plain.lex (h : Plain text) : Word.lex text.toList = .text text := by
  have hstar : text.toList ≠ ['*'] := by
    intro hc
    exact (h.chars '*' (hc ▸ List.mem_cons_self)).2.2.1 rfl
  have hunit : text.toList ≠ ['m', 's'] := by
    intro hc
    exact (h.chars 'm' (hc ▸ List.mem_cons_self)).2.2.2.1 rfl
  have hmark : text.toList.head? ≠ some '!' := by
    intro hc
    exact (h.chars '!' (List.mem_of_mem_head? hc)).2.2.2.2 rfl
  rw [Word.lex, if_neg hstar, if_neg hunit, if_neg hmark, String.ofList_toList]

theorem Unreachable.Made.lex {failure : Unreachable} (h : failure.Made) :
    Word.lex failure.display.toList = .failure failure.display := by
  obtain ⟨hhead, _⟩ := h.word
  have hstar : failure.display.toList ≠ ['*'] := by
    intro hc
    rw [hc] at hhead
    exact absurd hhead (by decide)
  have hunit : failure.display.toList ≠ ['m', 's'] := by
    intro hc
    rw [hc] at hhead
    exact absurd hhead (by decide)
  rw [Word.lex, if_neg hstar, if_neg hunit, if_pos hhead, String.ofList_toList]

theorem IpAddr.plain_display (ip : IpAddr) : Plain ip.display where
  ne_nil := ip.toList_display_ne_nil
  chars c hc := by
    obtain ⟨hblank, hline, hstar, hunit, hmark, _⟩ := (ip.addrChar_display hc).ne
    exact ⟨hblank, hline, hstar, hunit, hmark⟩

theorem plain_sourceText (source : Option IpAddr) : Plain (sourceText source) := by
  cases source with
  | some ip => exact ip.plain_display
  | none =>
    refine ⟨by decide, ?_⟩
    intro c hc
    have hmark : c = '?' := by simpa [sourceText] using hc
    subst hmark
    decide

theorem MsFormat.plain_display (ms : MsFormat) (rtt : Duration) : Plain (ms.display rtt) where
  ne_nil := ms.ne_empty rtt
  chars c hc := by
    have haddr : AddrChar c := by
      rcases ms.digits rtt c hc with rfl | ⟨d, hd, rfl⟩
      · exact .inr (.inl rfl)
      · exact .inr (.inr ⟨d, by omega, rfl⟩)
    obtain ⟨hblank, hline, hstar, hunit, hmark, _⟩ := haddr.ne
    exact ⟨hblank, hline, hstar, hunit, hmark⟩

theorem sourceText_injective : Function.Injective sourceText := by
  have hunknown (ip : IpAddr) : ip.display ≠ "?" := by
    intro h
    have hmem : '?' ∈ ip.display.toList := by
      rw [h]
      decide
    exact (ip.addrChar_display hmem).ne.2.2.2.2.2 rfl
  intro a b h
  cases a with
  | none =>
    cases b with
    | none => rfl
    | some ip => exact absurd h.symm (hunknown ip)
  | some ip =>
    cases b with
    | none => exact absurd h (hunknown ip)
    | some ip' => exact congrArg some (IpAddr.display_injective h)

end Words

section Lines

variable (ms : MsFormat)

/-- The words of a piece. -/
def Piece.words : Piece → List Word
  | .source ip => [.text (sourceText ip)]
  | .result rtt none => [.text (ms.display rtt), .unit]
  | .result rtt (some annotation) =>
    [.text (ms.display rtt), .unit, .failure annotation.display]
  | .star => [.star]

/-- The token of a piece, as a line shows it. -/
def Piece.shownToken (piece : Piece) : Token String (String × Option String) :=
  piece.token.map sourceText (Prod.map ms.display (Option.map Unreachable.display))

/-- The failure that a piece shows. -/
def Piece.failure? : Piece → Option Unreachable
  | .result _ failure => failure
  | _ => none

variable {ms}

theorem readWords_words (pieces : List Piece) :
    readWords (pieces.flatMap (Piece.words ms)) = some (pieces.map (Piece.shownToken ms)) := by
  have hnext (pieces : List Piece) :
      (∀ words, pieces.flatMap (Piece.words ms) ≠ .unit :: words) ∧
        ∀ annotation words, pieces.flatMap (Piece.words ms) ≠ .failure annotation :: words := by
    cases pieces with
    | nil => exact ⟨nofun, nofun⟩
    | cons piece pieces =>
      rw [List.flatMap_cons]
      cases piece with
      | source => exact ⟨nofun, nofun⟩
      | result _ failure => cases failure <;> exact ⟨nofun, nofun⟩
      | star => exact ⟨nofun, nofun⟩
  induction pieces with
  | nil => rfl
  | cons piece pieces ih =>
    obtain ⟨hunit, hfailure⟩ := hnext pieces
    rw [List.flatMap_cons, List.map_cons]
    cases piece with
    | source ip =>
      rw [Piece.words, List.singleton_append, readWords, ih]
      · rfl
      · exact fun annotation words hc => hunit _ hc
      · exact fun words hc => hunit words hc
    | result rtt failure =>
      cases failure with
      | none =>
        rw [Piece.words, List.cons_append, List.singleton_append, readWords, ih]
        · rfl
        · exact fun annotation words hc => hfailure annotation words hc
      | some annotation =>
        rw [Piece.words, List.cons_append, List.cons_append, List.singleton_append, readWords, ih]
        rfl
    | star =>
      rw [Piece.words, List.singleton_append, readWords, ih]
      rfl

theorem toList_result (rtt : Duration) (failure : Option Unreachable) :
    (Piece.display ms (.result rtt failure)).toList = ' ' :: ' ' :: ((ms.display rtt).toList ++
      ' ' :: 'm' :: 's' :: match failure with
        | some annotation => ' ' :: ' ' :: annotation.display.toList
        | none => []) := by
  cases failure <;>
    simp [Piece.display, resultText]

theorem words_display {piece : Piece}
    (h : ∀ failure, piece.failure? = some failure → failure.Made) :
    (words ' ' (piece.display ms).toList).map Word.lex = piece.words ms := by
  have hunit : words ' ' ['m', 's'] = [['m', 's']] := words_self (by decide) (by decide)
  cases piece with
  | source ip =>
    have hplain := plain_sourceText ip
    have htext : (Piece.display ms (.source ip)).toList = ' ' :: ' ' :: (sourceText ip).toList :=
      String.toList_append
    rw [htext, words_cons, words_cons, words_self hplain.not_mem.1 hplain.ne_nil,
      List.map_singleton, hplain.lex]
    rfl
  | result rtt failure =>
    have hplain := ms.plain_display rtt
    rw [toList_result, words_cons, words_cons, words_append_cons,
      words_self hplain.not_mem.1 hplain.ne_nil]
    cases failure with
    | none =>
      dsimp only
      rw [hunit, List.singleton_append, List.map_cons, hplain.lex]
      rfl
    | some annotation =>
      have hmade := h annotation rfl
      have hne : annotation.display.toList ≠ [] := by
        intro hc
        have hhead := hmade.word.1
        rw [hc] at hhead
        cases hhead
      dsimp only
      rw [show 'm' :: 's' :: ' ' :: ' ' :: annotation.display.toList =
        ['m', 's'] ++ ' ' :: ' ' :: annotation.display.toList from rfl, words_append_cons,
        words_cons, hunit, words_self hmade.word.2.1 hne]
      simp only [List.singleton_append, List.map_cons, List.map_nil, hplain.lex, hmade.lex]
      rfl
  | star =>
    have htext : (Piece.display ms .star).toList = [' ', ' ', '*'] := by simp [Piece.display]
    rw [htext, words_cons, words_cons, words_self (by decide) (by decide)]
    rfl

theorem Piece.display_blank (piece : Piece) :
    ∃ back, (piece.display ms).toList = ' ' :: back := by
  cases piece with
  | source ip => exact ⟨' ' :: (sourceText ip).toList, String.toList_append⟩
  | result rtt failure => exact ⟨_, toList_result rtt failure⟩
  | star => exact ⟨[' ', '*'], by simp [Piece.display]⟩

theorem Piece.newline_not_mem {piece : Piece}
    (h : ∀ failure, piece.failure? = some failure → failure.Made) :
    '\n' ∉ (piece.display ms).toList := by
  cases piece with
  | source ip =>
    have hplain := (plain_sourceText ip).not_mem.2
    simpa [Piece.display] using hplain
  | result rtt failure =>
    have hplain := (ms.plain_display rtt).not_mem.2
    rw [toList_result]
    cases failure with
    | none => simpa using hplain
    | some annotation =>
      have hmade := (h annotation rfl).word.2.2
      simp [hplain, hmade]
  | star => simp [Piece.display]

/-- The characters of a line before its newline. -/
def Line.chars (ms : MsFormat) (line : Line) : List Char :=
  List.leftpad 2 ' ' (Nat.toDigits 10 line.ttl.toNat) ++
    line.pieces.flatMap fun piece => (piece.display ms).toList

theorem Line.toList_display (line : Line) :
    (line.display ms).toList = line.chars ms ++ ['\n'] := by
  rw [Line.display, String.toList_append, String.toList_append, String.toList_ofList,
    String.toList_join, List.flatMap_map, Line.chars, ← Nat.toList_repr]
  rfl

theorem Line.newline_not_mem {line : Line}
    (h : ∀ piece ∈ line.pieces, ∀ failure, piece.failure? = some failure → failure.Made) :
    '\n' ∉ line.chars ms := by
  have hdigits : '\n' ∉ Nat.toDigits 10 line.ttl.toNat := Unreachable.not_mem_decimal (by decide)
  intro hc
  rcases List.mem_append.mp hc with hc | hc
  · rcases List.mem_append.mp hc with hc | hc
    · exact absurd (List.eq_of_mem_replicate hc) (by decide)
    · exact hdigits hc
  · obtain ⟨piece, hpiece, hmem⟩ := List.mem_flatMap.mp hc
    exact Piece.newline_not_mem (h piece hpiece) hmem

theorem readLine_chars {line : Line}
    (h : ∀ piece ∈ line.pieces, ∀ failure, piece.failure? = some failure → failure.Made) :
    readLine (line.chars ms) =
      (readTokens none (line.pieces.map (Piece.shownToken ms))).map (line.ttl.toNat, ·) := by
  have hdigits : ' ' ∉ Nat.toDigits 10 line.ttl.toNat := Unreachable.not_mem_decimal (by decide)
  have hwords : words ' ' (line.chars ms) = Nat.toDigits 10 line.ttl.toNat ::
      line.pieces.flatMap fun piece => words ' ' (piece.display ms).toList := by
    rw [Line.chars, words_flatMap _ _ Piece.display_blank, List.leftpad, words_replicate,
      words_self hdigits Nat.toDigits_ne_nil]
    rfl
  have hlex : (line.pieces.flatMap fun piece => words ' ' (piece.display ms).toList).map Word.lex =
      line.pieces.flatMap (Piece.words ms) := by
    rw [List.map_flatMap]
    exact List.flatMap_congr fun piece hpiece => words_display (h piece hpiece)
  rw [readLine, hwords]
  dsimp only
  rw [hlex, readWords_words, Nat.ofDigitChars_ten_toDigits, Option.map_eq_bind]
  rfl

variable (ms) in
/-- What the text of a report tells of a probe. -/
def Probe.told (probe : Probe) : Told :=
  probe.shown.map (Prod.map sourceText (Prod.map ms.display (Option.map Unreachable.display)))

variable (ms) in
/-- What a report tells of a probe, the time as it is printed. -/
def Probe.reported (probe : Probe) : Option (Option IpAddr × String × Option Unreachable) :=
  probe.shown.map (Prod.map id (Prod.map ms.display id))

/-- If the probe has failed, it has in a way the program makes. -/
def Probe.Made (probe : Probe) : Prop :=
  ∀ result, probe.result = some result →
    ∀ failure, result.kind.failure = some failure → failure.Made

theorem Probe.Made.told_inj (h : Probe.Made a) (h' : Probe.Made b) (ht : a.told ms = b.told ms) :
    a.reported ms = b.reported ms := by
  cases ha : a.result with
  | none =>
    cases hb : b.result with
    | none => simp only [Probe.reported, Probe.shown, ha, hb]
    | some outcome =>
      simp only [Probe.told, Probe.shown, ha, hb] at ht
      cases ht
  | some result =>
    cases hb : b.result with
    | none =>
      simp only [Probe.told, Probe.shown, ha, hb] at ht
      cases ht
    | some outcome =>
      simp only [Probe.told, Probe.shown, ha, hb, Option.map_some, Option.some_inj, Prod.map,
        Prod.mk.injEq] at ht
      obtain ⟨hsource, hrtt, hfailure⟩ := ht
      have hannotation : result.kind.failure = outcome.kind.failure := by
        cases hf : result.kind.failure with
        | none =>
          rw [hf] at hfailure
          exact (Option.map_eq_none_iff.mp hfailure.symm).symm
        | some failure =>
          rw [hf] at hfailure
          obtain ⟨other, hother, hdisplay⟩ := Option.map_eq_some_iff.mp hfailure.symm
          rw [hother]
          exact congrArg some
            ((h result ha failure hf).display_inj (h' outcome hb other hother) hdisplay.symm)
      simp only [Probe.reported, Probe.shown, ha, hb, Option.map_some, Prod.map, id_eq, hrtt,
        sourceText_injective hsource, hannotation]

/-- Every failure of a hop's results is one the program makes. -/
def HopMade (hop : List Probe) : Prop := ∀ probe ∈ hop, probe.Made

theorem HopMade.told_inj (h : HopMade hop) (h' : HopMade hop')
    (ht : hop.map (Probe.told ms) = hop'.map (Probe.told ms)) :
    hop.map (Probe.reported ms) = hop'.map (Probe.reported ms) := by
  apply List.ext_getElem?
  intro i
  have hi := congrArg (·[i]?) ht
  simp only [List.getElem?_map] at hi ⊢
  cases hp : hop[i]? with
  | none =>
    rw [hp] at hi
    rw [Option.map_eq_none_iff.mp hi.symm]
  | some probe =>
    rw [hp] at hi
    obtain ⟨probe', hp', htold⟩ := Option.map_eq_some_iff.mp hi.symm
    rw [hp', Option.map_some, Option.map_some, (h probe (List.mem_of_getElem? hp)).told_inj
      (h' probe' (List.mem_of_getElem? hp')) htold.symm]

theorem HopMade.pieces (h : HopMade hop) :
    ∀ piece ∈ (printHop hop).pieces, ∀ failure, piece.failure? = some failure → failure.Made := by
  intro piece hpiece failure hfailure
  cases piece with
  | result rtt annotation =>
    obtain ⟨probe, hprobe, result, hr, _, hkind⟩ := result_mem_printHopProbes hpiece
    exact h probe hprobe result hr failure (hkind.trans hfailure)
  | _ => cases hfailure

theorem HopMade.readLine (h : HopMade hop) :
    Ringroute.readLine ((printHop hop).chars ms) =
      some ((printHop hop).ttl.toNat, hop.map (Probe.told ms)) := by
  have htokens : (printHop hop).pieces.map (Piece.shownToken ms) =
      ((printHopProbes none hop).map Piece.token).map
        (Token.map sourceText (Prod.map ms.display (Option.map Unreachable.display))) := by
    rw [List.map_map]
    rfl
  have hread := readHop_printHopProbes hop
  rw [readHop] at hread
  rw [readLine_chars h.pieces, htokens, ← Option.map_none, readTokens_map, hread, Option.map_some,
    Option.map_some, List.map_map]
  rfl

theorem readReport_hops {hops : List (List Probe)} (h : ∀ hop ∈ hops, HopMade hop) :
    readReport (reportText ms (hops.map printHop)) =
      some (hops.map fun hop => ((printHop hop).ttl.toNat, hop.map (Probe.told ms))) := by
  have htext : (reportText ms (hops.map printHop)).toList =
      (hops.map fun hop => (printHop hop).chars ms).flatMap (· ++ ['\n']) := by
    rw [reportText, String.toList_join, List.flatMap_map, List.flatMap_map, List.flatMap_map]
    exact List.flatMap_congr fun hop _ => (printHop hop).toList_display
  have hlines : ∀ line ∈ hops.map fun hop => (printHop hop).chars ms, '\n' ∉ line := by
    intro line hline
    obtain ⟨hop, hhop, rfl⟩ := List.mem_map.mp hline
    exact Line.newline_not_mem (h hop hhop).pieces
  rw [readReport, htext, splitOn_lines hlines, List.dropLast_concat]
  clear htext hlines
  induction hops with
  | nil => rfl
  | cons hop hops ih =>
    rw [List.map_cons, List.mapM_cons, (h hop List.mem_cons_self).readLine,
      ih fun hop' hhop' => h hop' (List.mem_cons_of_mem _ hhop')]
    rfl

example :
    Line.display .std ⟨7, [.source none, .result 1234500 (some (.tooBig 1400)), .star]⟩ =
        " 7  ?  1.234 ms  !F-1400  *\n" ∧
      readReport " 7  ?  1.234 ms  !F-1400  *\n" =
        some [(7, [some ("?", "1.234", some "!F-1400"), none])] :=
  ⟨by decide +kernel, rfl⟩

theorem Laid.printedHops_subset (h : Laid first last count probes) (ht : t ∈ printedHops probes) :
    t ∈ probes.map Probe.ttl := by
  have hcount : 0 < count.toNat := by
    refine h.count_pos ?_
    rintro rfl
    exact absurd ht List.not_mem_nil
  rw [h.printedHops_eq hcount] at ht
  rw [h]
  refine List.mem_flatMap.mpr ⟨t, takeThrough_subset ht, ?_⟩
  exact List.mem_replicate.mpr ⟨Nat.ne_of_gt hcount, rfl⟩

theorem Laid.printed (h : Laid first last count probes) :
    printResults probes = ((printedHops probes).map (hopAt probes)).map printHop := by
  rcases Nat.eq_zero_or_pos count.toNat with hcount | hcount
  · rw [h.nil hcount]
    rfl
  · rw [printResults, printHops_eq, h.hopsOf hcount, takeThrough_map, ← h.printedHops_eq hcount]

theorem Laid.readReport (h : Laid first last count probes) (hmade : ∀ probe ∈ probes, probe.Made) :
    Ringroute.readReport (reportText ms (printResults probes)) =
      some ((printedHops probes).map fun t =>
        (t.toNat, (hopAt probes t).map (Probe.told ms))) := by
  have hhops : ∀ hop ∈ (printedHops probes).map (hopAt probes), HopMade hop := by
    intro hop hhop
    obtain ⟨t, _, rfl⟩ := List.mem_map.mp hhop
    exact fun probe hprobe => hmade probe (mem_hopAt.mp hprobe).1
  rw [h.printed, readReport_hops hhops, List.map_map]
  refine congrArg some (List.map_congr_left fun t ht => ?_)
  rw [Function.comp_apply, printHop_ttl (h.printedHops_subset ht)]

end Lines

namespace RunArgs

variable {host host' : Host} {uring : RecvMsgOutApi host} {uring' : RecvMsgOutApi host'}
  {slab slab' : SlabApi Outgoing} {args args' : RunArgs} {arg arg' : MethodArg}

theorem Leaves.made (h : args.Leaves uring slab labels probes)
    (hbuild : arg.build pnet system target packetLen = .ok args.method) :
    ∀ probe ∈ probes, probe.Made := by
  obtain ⟨w, hw, rfl⟩ := h.processes
  intro probe hp result hr failure hfailure
  exact hw.made hbuild hp hr hfailure

/-- The text that a trace prints can be read back. It has a line for each hop that is reported, with
the hop limit, and for each probe of the hop its source, its time as printed and its annotation, or
that it has not been answered; and two traces whose texts are the same have reported the same of the
same hops. -/
theorem Leaves.report_text (h : args.Leaves uring slab labels probes)
    (hbuild : arg.build pnet system target packetLen = .ok args.method)
    (h' : args'.Leaves uring' slab' labels' probes')
    (hbuild' : arg'.build pnet' system' target' packetLen' = .ok args'.method) (ms : MsFormat) :
    readReport (reportText ms (printResults probes)) =
      some ((printedHops probes).map fun t =>
        (t.toNat, (hopAt probes t).map (Probe.told ms))) ∧
    (reportText ms (printResults probes) = reportText ms (printResults probes') →
      printedHops probes = printedHops probes' ∧ ∀ t ∈ printedHops probes,
        (hopAt probes t).map (Probe.reported ms) = (hopAt probes' t).map (Probe.reported ms)) := by
  have hmade := h.made hbuild
  have hmade' := h'.made hbuild'
  obtain ⟨w, hw, rfl⟩ := h.processes
  obtain ⟨w', hw', rfl⟩ := h'.processes
  have hread := @Laid.readReport ms _ _ _ _ hw.laid hmade
  refine ⟨hread, ?_⟩
  intro htext
  rw [htext, @Laid.readReport ms _ _ _ _ hw'.laid hmade'] at hread
  have htold := (Option.some.inj hread).symm
  have hhops : printedHops w.run.probes = printedHops w'.run.probes := by
    have hinj : Function.Injective UInt8.toNat := fun _ _ he => UInt8.toNat_inj.mp he
    have hfirst := congrArg (List.map Prod.fst) htold
    rw [List.map_map, List.map_map] at hfirst
    exact hinj.list_map hfirst
  refine ⟨hhops, ?_⟩
  intro t ht
  rw [hhops, List.map_inj_left] at htold
  have hhop : HopMade (hopAt w.run.probes t) := fun probe hp => hmade probe (mem_hopAt.mp hp).1
  have hhop' : HopMade (hopAt w'.run.probes t) := fun probe hp => hmade' probe (mem_hopAt.mp hp).1
  exact hhop.told_inj hhop' (Prod.mk.inj (htold t (hhops ▸ ht))).2

/-- What is read of the report of a trace of the loopback address: one hop, the target at two
nanoseconds. -/
theorem report_text_loopback :
    ∃ labels probes, (loopback 1 2 1).Leaves (.layout .x86_64) (.vec Outgoing) labels probes ∧
      readReport (reportText .std (printResults probes)) =
        some [(1, [some ("127.0.0.1", "0.000", none)])] := by
  obtain ⟨k, o, ho, ⟨w, hreach, _⟩, _⟩ := loopback_orders 7 9
  have h := hreach.leaves
  obtain ⟨probe, hp, _, hresult⟩ := hreach.processes.specified_of_lt (i := 0) (by decide)
  have hr : probe.result = some ⟨some (.v4 .localhost), 2, .destination⟩ :=
    hresult.trans (resultOf_loopback ho [])
  refine ⟨_, w.run.probes, h, ?_⟩
  rw [(h.report_text loopback_build h loopback_build .std).1]
  have hlaid := hreach.processes.laid
  have hhop : hopAt w.run.probes 1 = [probe] := by
    obtain ⟨rest, hprobes⟩ := List.head?_eq_some_iff.mp (List.head?_eq_getElem?.trans hp)
    have hslices := (hlaid.hopsOf (by decide)).symm.trans (hopsOf_slices hlaid (by decide))
    have hfirst := (List.cons.inj hslices).1
    exact hfirst.trans (by rw [hprobes]; rfl)
  have hhops : printedHops w.run.probes = [1] := by
    rw [hlaid.printedHops_eq (by decide)]
    change takeThrough _ [1, 2] = [1]
    rw [takeThrough, hhop, terminates_iff.mpr ⟨probe, List.mem_cons_self, _, hr, rfl⟩]
    rfl
  have htold : probe.told .std = some ("127.0.0.1", "0.000", none) := by
    have hsource : sourceText (some (.v4 .localhost)) = "127.0.0.1" := by decide
    have hrtt : MsFormat.std.display 2 = "0.000" := by decide +kernel
    simp only [Probe.told, Probe.shown, hr, Option.map_some, Prod.map, hsource, hrtt]
    rfl
  rw [hhops, List.map_singleton, hhop, List.map_singleton, htold]
  rfl

end RunArgs

end Ringroute
