import Ringroute.Library.Text
import Ringroute.Net

namespace Ringroute
open Library
set_option autoImplicit true

/-- Four decimal numbers. -/
def Ipv4Addr.display (ip : Ipv4Addr) : String :=
  ".".intercalate (ip.octets.toList.map fun octet => toString octet)

namespace Ipv6Addr

/-- A run of zeros among the segments of an address. -/
structure Span where
  start : Nat
  len : Nat
  deriving DecidableEq, Repr

def segments (ip : Ipv6Addr) : List Nat := pairs ip.octets.toList
where
  pairs : Bytes → List Nat
    | high :: low :: rest => Bytes.beValue [high, low] :: pairs rest
    | _ => []

def toIpv4Mapped (ip : Ipv6Addr) : Option Ipv4Addr :=
  if ip.octets.toList.take 12 = List.replicate 10 0 ++ [0xff, 0xff] then
    some ⟨#v[ip.octets[12], ip.octets[13], ip.octets[14], ip.octets[15]]⟩
  else none

/-- The first of the longest runs of zeros, from the segment with the given index on. -/
def longestZeros (longest current : Span) (index : Nat) : List Nat → Span
  | [] => longest
  | segment :: segments =>
    if segment = 0 then
      let start := if current.len = 0 then index else current.start
      let current := { start := start, len := current.len + 1 }
      let longest := if longest.len < current.len then current else longest
      longestZeros longest current (index + 1) segments
    else longestZeros longest ⟨0, 0⟩ (index + 1) segments

/-- A segment in hexadecimal. -/
def hex (segment : Nat) : String := String.ofList (Nat.toDigits 16 segment)

def fmtSubslice (chunk : List Nat) : String := ":".intercalate (chunk.map hex)

/-- The longest run of zeros is left out, unless it is a single one. -/
def display (ip : Ipv6Addr) : String :=
  match ip.toIpv4Mapped with
  | some ipv4 => "::ffff:" ++ ipv4.display
  | none =>
    let segments := ip.segments
    let zeroes := longestZeros ⟨0, 0⟩ ⟨0, 0⟩ 0 segments
    if 1 < zeroes.len then
      fmtSubslice (segments.take zeroes.start) ++ "::" ++
        fmtSubslice (segments.drop (zeroes.start + zeroes.len))
    else fmtSubslice segments

end Ipv6Addr

def IpAddr.display : IpAddr → String
  | .v4 ip => ip.display
  | .v6 ip => ip.display

section Digits

/-- A character of an address. -/
def AddrChar (c : Char) : Prop := c = ':' ∨ c = '.' ∨ ∃ d < 16, c = d.digitChar

theorem digit_ne_colon : ∀ d < 16, d.digitChar ≠ ':' := by decide

theorem digit_ne_dot : ∀ d < 16, d.digitChar ≠ '.' := by decide

theorem not_mem_toDigits (hb : 1 < b)
    (hc : ∀ d < b, d.digitChar ≠ c) : c ∉ Nat.toDigits b n := by
  intro h
  obtain ⟨d, hd, he⟩ := mem_toDigits hb h
  exact hc d hd he.symm

theorem nil_not_mem_digits (segments : List Nat) : [] ∉ segments.map (Nat.toDigits b) := by
  intro h
  obtain ⟨n, _, hn⟩ := List.mem_map.mp h
  exact absurd hn Nat.toDigits_ne_nil

end Digits

namespace Ipv4Addr

theorem toList_display (ip : Ipv4Addr) :
    ip.display.toList =
      ['.'].intercalate (ip.octets.toList.map fun octet => Nat.toDigits 10 octet.toNat) := by
  rw [display, String.toList_intercalate, List.map_map]
  congr 1
  exact List.map_congr_left fun octet _ => Nat.toList_repr

theorem splitOn_display (ip : Ipv4Addr) :
    ip.display.toList.splitOn '.' =
      ip.octets.toList.map fun octet => Nat.toDigits 10 octet.toNat := by
  rw [toList_display]
  apply List.splitOn_intercalate
  · intro field hfield
    obtain ⟨octet, _, rfl⟩ := List.mem_map.mp hfield
    exact not_mem_toDigits (by decide) (by decide)
  · intro hnil
    have hlen := congrArg List.length hnil
    rw [List.length_map, Vector.length_toList] at hlen
    exact absurd hlen (by decide)

theorem display_injective : Function.Injective display := by
  intro a b h
  have hfields := splitOn_display a
  rw [h, splitOn_display b] at hfields
  have hinj : Function.Injective fun octet : UInt8 => Nat.toDigits 10 octet.toNat :=
    fun x y hxy => UInt8.toNat_inj.mp (toDigits_injective (by decide) (by decide) hxy)
  have hoctets := Vector.toList_inj.mp (hinj.list_map hfields)
  cases a
  cases b
  exact congrArg mk hoctets.symm

theorem addrChar_display (ip : Ipv4Addr) (h : c ∈ ip.display.toList) : c ≠ ':' ∧ AddrChar c := by
  rw [toList_display] at h
  rcases mem_intercalate h with rfl | ⟨field, hfield, hc⟩
  · exact ⟨by decide, .inr (.inl rfl)⟩
  · obtain ⟨octet, _, rfl⟩ := List.mem_map.mp hfield
    obtain ⟨d, hd, rfl⟩ := mem_toDigits (by decide) hc
    exact ⟨digit_ne_colon d (by omega), .inr (.inr ⟨d, by omega, rfl⟩)⟩

theorem dot_mem_display (ip : Ipv4Addr) : '.' ∈ ip.display.toList := by
  by_contra hnot
  have h := splitOn_display ip
  rw [List.splitOn_eq_singleton hnot] at h
  have hlen := congrArg List.length h
  rw [List.length_map, Vector.length_toList, List.length_singleton] at hlen
  exact absurd hlen (by decide)

end Ipv4Addr

namespace Ipv6Addr

section Segments

theorem pairs_injective {xs ys : Bytes} (hx : xs.length = 2 * n) (hy : ys.length = 2 * n)
    (h : segments.pairs xs = segments.pairs ys) : xs = ys := by
  induction n generalizing xs ys with
  | zero => rw [List.length_eq_zero_iff.mp hx, List.length_eq_zero_iff.mp hy]
  | succ n ih =>
    match xs, ys with
    | high :: low :: xs, high' :: low' :: ys =>
      obtain ⟨hpair, hrest⟩ := List.cons.inj h
      have hbytes : [high, low] = [high', low'] := by
        rw [← Bytes.beBytes_beValue [high, low], ← Bytes.beBytes_beValue [high', low'], hpair]
        rfl
      cases hbytes
      rw [List.length_cons, List.length_cons] at hx hy
      have hxs : xs.length = 2 * n := by omega
      have hys : ys.length = 2 * n := by omega
      rw [ih hxs hys hrest]

theorem length_pairs {bs : Bytes} (h : bs.length = 2 * n) : (segments.pairs bs).length = n := by
  induction n generalizing bs with
  | zero =>
    rw [List.length_eq_zero_iff.mp h]
    rfl
  | succ n ih =>
    match bs with
    | high :: low :: bs =>
      rw [List.length_cons, List.length_cons] at h
      have hbs : bs.length = 2 * n := by omega
      exact congrArg Nat.succ (ih hbs)

theorem segments_injective : Function.Injective segments := by
  intro a b h
  have ha : a.octets.toList.length = 2 * 8 := Vector.length_toList
  have hb : b.octets.toList.length = 2 * 8 := Vector.length_toList
  have hoctets := Vector.toList_inj.mp (pairs_injective ha hb h)
  cases a
  cases b
  exact congrArg mk hoctets

theorem length_segments (ip : Ipv6Addr) : ip.segments.length = 8 :=
  length_pairs (n := 8) Vector.length_toList

end Segments

section Zeros

variable {all : List Nat}

/-- The segments in a span are zeros. -/
def Span.Zeros (all : List Nat) (span : Span) : Prop :=
  ∀ i, span.start ≤ i → i < span.start + span.len → all[i]? = some 0

theorem Span.Zeros.split {span : Span} (h : span.Zeros all) :
    all = all.take span.start ++ List.replicate span.len 0 ++
      all.drop (span.start + span.len) := by
  have hmiddle : (all.drop span.start).take span.len = List.replicate span.len 0 := by
    apply List.ext_getElem?
    intro i
    rw [List.getElem?_take, List.getElem?_drop, List.getElem?_replicate]
    split
    · exact h _ (by omega) (by omega)
    · rfl
  rw [← hmiddle, List.append_assoc, ← List.drop_drop, List.take_append_drop,
    List.take_append_drop]

theorem longestZeros_zeros {longest current : Span} (hlongest : longest.Zeros all)
    (hcurrent : current.Zeros all) (hend : current.len ≠ 0 → current.start + current.len = index)
    (hrest : all.drop index = rest) :
    (longestZeros longest current index rest).Zeros all := by
  induction rest generalizing longest current index with
  | nil => exact hlongest
  | cons segment rest ih =>
    have hnext : all.drop (index + 1) = rest := by
      rw [← List.drop_drop, hrest]
      rfl
    have hget : all[index]? = some segment := by
      rw [← List.head?_drop, hrest]
      rfl
    rw [longestZeros]
    split
    · rename_i hzero
      subst hzero
      dsimp only
      have hspan : Span.Zeros all
          ⟨if current.len = 0 then index else current.start, current.len + 1⟩ := by
        intro i hle hlt
        dsimp only at hle hlt
        split at hle <;> split at hlt
        · rename_i hnew _
          have hi : i = index := by omega
          exact hi ▸ hget
        · contradiction
        · contradiction
        · rename_i hold _
          have hlast := hend hold
          by_cases hi : i = index
          · exact hi ▸ hget
          · exact hcurrent i hle (by omega)
      refine ih ?_ hspan ?_ hnext
      · split
        · exact hspan
        · exact hlongest
      · intro _
        dsimp only
        split
        · rename_i hnew
          omega
        · rename_i hold
          have hlast := hend hold
          omega
    · refine ih hlongest ?_ (fun hc => absurd rfl hc) hnext
      intro i hle hlt
      exact absurd hlt (Nat.not_lt_zero i)

end Zeros

section Text

theorem toList_fmtSubslice (chunk : List Nat) :
    (fmtSubslice chunk).toList = [':'].intercalate (chunk.map (Nat.toDigits 16)) := by
  rw [fmtSubslice, String.toList_intercalate, List.map_map]
  congr 1
  exact List.map_congr_left fun segment _ => String.toList_ofList

theorem splitOn_fmtSubslice (chunk : List Nat) :
    (fmtSubslice chunk).toList.splitOn ':' =
      if chunk.map (Nat.toDigits 16) = [] then [[]] else chunk.map (Nat.toDigits 16) := by
  rw [toList_fmtSubslice]
  apply splitOn_fields
  intro field hfield
  obtain ⟨segment, _, rfl⟩ := List.mem_map.mp hfield
  exact not_mem_toDigits (by decide) digit_ne_colon

theorem display_unmapped {ip : Ipv6Addr} (h : ip.toIpv4Mapped = none) :
    ip.display = fmtSubslice ip.segments ∨
      ∃ left gap right, ip.segments = left ++ List.replicate gap 0 ++ right ∧
        ip.display = fmtSubslice left ++ "::" ++ fmtSubslice right := by
  rw [display, h]
  dsimp only
  split
  · have hnone : Span.Zeros ip.segments ⟨0, 0⟩ := fun i _ hlt => absurd hlt (Nat.not_lt_zero i)
    have hzeros := longestZeros_zeros hnone hnone (fun hc => absurd rfl hc) List.drop_zero
    exact .inr ⟨_, _, _, hzeros.split, rfl⟩
  · exact .inl rfl

/-- An address that maps no IPv4 address is known from its text, whatever run is left out. -/
theorem restore_display {ip : Ipv6Addr} (h : ip.toIpv4Mapped = none) :
    restore 8 ['0'] (ip.display.toList.splitOn ':') = ip.segments.map (Nat.toDigits 16) := by
  have hlen := ip.length_segments
  rcases display_unmapped h with hd | ⟨left, gap, right, hsegments, hd⟩
  · rw [hd, splitOn_fmtSubslice, if_neg, restore_full (nil_not_mem_digits ip.segments)]
    intro hnil
    rw [List.map_eq_nil_iff.mp hnil] at hlen
    exact absurd hlen (by decide)
  · have hsplit : ip.display.toList.splitOn ':' =
        (fmtSubslice left).toList.splitOn ':' ++
          ([] :: (fmtSubslice right).toList.splitOn ':') := by
      rw [hd, String.toList_append, String.toList_append, List.append_assoc]
      change ((fmtSubslice left).toList ++ ':' :: ([] ++ ':' :: (fmtSubslice right).toList)).splitOn
        ':' = _
      rw [List.splitOn_append_cons_self, List.splitOn_append_cons_self]
      rfl
    rw [hsegments, List.length_append, List.length_append, List.length_replicate] at hlen
    have hgap : (left.map (Nat.toDigits 16)).length + gap +
        (right.map (Nat.toDigits 16)).length = 8 := by
      rwa [List.length_map, List.length_map]
    rw [hsplit, splitOn_fmtSubslice, splitOn_fmtSubslice,
      restore_gap (nil_not_mem_digits left) (nil_not_mem_digits right) hgap, hsegments,
      List.map_append, List.map_append, List.map_replicate, Nat.toDigits_zero]

theorem addrChar_fmtSubslice (chunk : List Nat) (h : c ∈ (fmtSubslice chunk).toList) :
    c ≠ '.' ∧ AddrChar c := by
  rw [toList_fmtSubslice] at h
  rcases mem_intercalate h with rfl | ⟨field, hfield, hc⟩
  · exact ⟨by decide, .inl rfl⟩
  · obtain ⟨segment, _, rfl⟩ := List.mem_map.mp hfield
    obtain ⟨d, hd, rfl⟩ := mem_toDigits (by decide) hc
    exact ⟨digit_ne_dot d hd, .inr (.inr ⟨d, hd, rfl⟩)⟩

theorem addrChar_unmapped {ip : Ipv6Addr} (hip : ip.toIpv4Mapped = none)
    (h : c ∈ ip.display.toList) : c ≠ '.' ∧ AddrChar c := by
  rcases display_unmapped hip with hd | ⟨left, gap, right, _, hd⟩
  · rw [hd] at h
    exact addrChar_fmtSubslice _ h
  · rw [hd, String.toList_append, String.toList_append] at h
    rcases List.mem_append.mp h with h | h
    · rcases List.mem_append.mp h with h | h
      · exact addrChar_fmtSubslice _ h
      · have hcolon : c = ':' := by simpa using h
        subst hcolon
        exact ⟨by decide, .inl rfl⟩
    · exact addrChar_fmtSubslice _ h

theorem display_mapped {ip : Ipv6Addr} (h : ip.toIpv4Mapped = some ipv4) :
    ip.display = "::ffff:" ++ ipv4.display := by
  rw [display, h]

theorem toIpv4Mapped_inj {a b : Ipv6Addr} (ha : a.toIpv4Mapped = some ipv4)
    (hb : b.toIpv4Mapped = some ipv4) : a = b := by
  have hoctets (ip : Ipv6Addr) (h : ip.toIpv4Mapped = some ipv4) :
      ip.octets.toList = List.replicate 10 0 ++ [0xff, 0xff] ++ ipv4.octets.toList := by
    rw [toIpv4Mapped] at h
    split at h
    · rename_i htake
      cases h
      rw [← htake]
      obtain ⟨⟨⟨octets⟩, hsize⟩⟩ := ip
      match octets, hsize with
      | [_, _, _, _, _, _, _, _, _, _, _, _, _, _, _, _], _ => rfl
    · cases h
  have he := Vector.toList_inj.mp ((hoctets a ha).trans (hoctets b hb).symm)
  cases a
  cases b
  exact congrArg mk he

theorem dot_mem_iff (ip : Ipv6Addr) : '.' ∈ ip.display.toList ↔ ip.toIpv4Mapped ≠ none := by
  cases h : ip.toIpv4Mapped with
  | none => exact iff_of_false (fun hc => (addrChar_unmapped h hc).1 rfl) (fun hc => hc rfl)
  | some ipv4 =>
    refine iff_of_true ?_ (Option.some_ne_none ipv4)
    rw [display_mapped h, String.toList_append]
    exact List.mem_append_right _ ipv4.dot_mem_display

theorem display_injective : Function.Injective display := by
  intro a b h
  have hmapped : a.toIpv4Mapped ≠ none ↔ b.toIpv4Mapped ≠ none := by
    rw [← dot_mem_iff, ← dot_mem_iff, h]
  cases ha : a.toIpv4Mapped with
  | none =>
    have hb : b.toIpv4Mapped = none := by
      by_contra hb
      exact hmapped.mpr hb ha
    have hsegments := restore_display ha
    rw [h, restore_display hb] at hsegments
    have hinj := (toDigits_injective (b := 16) (by decide) (by decide)).list_map
    exact segments_injective (hinj hsegments).symm
  | some ipv4 =>
    have hb := hmapped.mp (by rw [ha]; exact Option.some_ne_none ipv4)
    obtain ⟨ipv4', hb⟩ := Option.ne_none_iff_exists'.mp hb
    rw [display_mapped ha, display_mapped hb] at h
    cases Ipv4Addr.display_injective (String.append_right_inj _ |>.mp h)
    exact toIpv4Mapped_inj ha hb

theorem colon_mem_display (ip : Ipv6Addr) : ':' ∈ ip.display.toList := by
  cases hip : ip.toIpv4Mapped with
  | none =>
    rcases display_unmapped hip with hd | ⟨left, gap, right, _, hd⟩
    · rw [hd]
      by_contra hnot
      have hsplit := congrArg List.length (splitOn_fmtSubslice ip.segments)
      rw [List.splitOn_eq_singleton hnot, if_neg, List.length_map, length_segments,
        List.length_singleton] at hsplit
      · exact absurd hsplit (by decide)
      · intro hnil
        have hlen := ip.length_segments
        rw [List.map_eq_nil_iff.mp hnil] at hlen
        exact absurd hlen (by decide)
    · rw [hd, String.toList_append, String.toList_append]
      exact List.mem_append_left _ (List.mem_append_right _ (by decide))
  | some ipv4 =>
    rw [display_mapped hip, String.toList_append]
    exact List.mem_append_left _ (by decide)

theorem addrChar_display (ip : Ipv6Addr) (h : c ∈ ip.display.toList) : AddrChar c := by
  cases hip : ip.toIpv4Mapped with
  | none => exact (addrChar_unmapped hip h).2
  | some ipv4 =>
    rw [display_mapped hip, String.toList_append] at h
    rcases List.mem_append.mp h with h | h
    · have hprefix : c = ':' ∨ c = 'f' := by
        simp only [String.reduceToList, List.mem_cons, List.not_mem_nil, or_false] at h
        tauto
      rcases hprefix with rfl | rfl
      · exact .inl rfl
      · exact .inr (.inr ⟨15, by decide, rfl⟩)
    · exact (ipv4.addrChar_display h).2

end Text

end Ipv6Addr

namespace IpAddr

theorem addrChar_display (ip : IpAddr) (h : c ∈ ip.display.toList) : AddrChar c := by
  cases ip with
  | v4 ip => exact (ip.addrChar_display h).2
  | v6 ip => exact ip.addrChar_display h

theorem toList_display_ne_nil (ip : IpAddr) : ip.display.toList ≠ [] := by
  cases ip with
  | v4 ip => exact List.ne_nil_of_mem ip.dot_mem_display
  | v6 ip => exact List.ne_nil_of_mem ip.colon_mem_display

theorem display_injective : Function.Injective display := by
  intro a b h
  cases a with
  | v4 a =>
    cases b with
    | v4 b => exact congrArg v4 (Ipv4Addr.display_injective h)
    | v6 b =>
      have hcolon := b.colon_mem_display
      rw [← show a.display = b.display from h] at hcolon
      exact absurd rfl (a.addrChar_display hcolon).1
  | v6 a =>
    cases b with
    | v4 b =>
      have hcolon := a.colon_mem_display
      rw [show a.display = b.display from h] at hcolon
      exact absurd rfl (b.addrChar_display hcolon).1
    | v6 b => exact congrArg v6 (Ipv6Addr.display_injective h)

example : (v6 ⟨#v[0x20, 0x01, 0x0d, 0xb8, 0, 0, 0, 0, 0, 1, 0, 0, 0, 0, 0, 0]⟩).display =
    "2001:db8:0:0:1::" := by decide

end IpAddr

end Ringroute
