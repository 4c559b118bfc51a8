import Mathlib.Data.List.Basic
import Ringroute.Library.Text
import Ringroute.Network

namespace Ringroute
open Library
set_option autoImplicit true

namespace Unreachable

/-- The markers that the program prints. -/
def markers : List String := ["!N", "!H", "!X", "!P", "!S", "!V", "!C", "!?"]

/-- A failure that the program can make of a reply. -/
def Made : Unreachable → Prop
  | .marker name => name ∈ markers
  | _ => True

theorem toList_code (c : UInt8) :
    (Unreachable.code c).display.toList = '!' :: '<' :: (Nat.toDigits 10 c.toNat ++ ['>']) := by
  rw [display, String.toList_append, String.toList_append]
  exact congrArg (fun digits => ['!', '<'] ++ digits ++ ['>']) Nat.toList_repr

theorem toList_other (t c : UInt8) :
    (Unreachable.other t c).display.toList =
      '!' :: '<' :: (Nat.toDigits 10 t.toNat ++ '-' :: (Nat.toDigits 10 c.toNat ++ ['>'])) := by
  simp only [display, String.toList_append]
  change ['!', '<'] ++ t.toNat.repr.toList ++ ['-'] ++ c.toNat.repr.toList ++ ['>'] = _
  rw [Nat.toList_repr, Nat.toList_repr]
  simp only [List.append_assoc, List.cons_append, List.nil_append]

theorem toList_tooBig (mtu : UInt32) :
    (Unreachable.tooBig mtu).display.toList = '!' :: 'F' :: '-' :: Nat.toDigits 10 mtu.toNat := by
  rw [display, String.toList_append]
  exact congrArg (fun digits => ['!', 'F', '-'] ++ digits) Nat.toList_repr

theorem marker_toList : ∀ name ∈ markers, name.toList.head? = some '!' ∧ name.toList.length = 2 ∧
    ' ' ∉ name.toList ∧ '\n' ∉ name.toList := by decide

theorem not_mem_decimal (hc : ∀ d < 10, d.digitChar ≠ c) : c ∉ Nat.toDigits 10 n := by
  intro h
  obtain ⟨d, hd, he⟩ := mem_toDigits (by decide) h
  exact hc d hd he.symm

theorem Made.word {failure : Unreachable} (h : failure.Made) :
    failure.display.toList.head? = some '!' ∧
      ' ' ∉ failure.display.toList ∧ '\n' ∉ failure.display.toList := by
  have hblank (n : Nat) : ' ' ∉ Nat.toDigits 10 n := not_mem_decimal (by decide)
  have hline (n : Nat) : '\n' ∉ Nat.toDigits 10 n := not_mem_decimal (by decide)
  cases failure with
  | marker name =>
    obtain ⟨hhead, _, hwords⟩ := marker_toList name h
    exact ⟨hhead, hwords⟩
  | code c =>
    rw [toList_code]
    simp [hblank, hline]
  | other t c =>
    rw [toList_other]
    simp [hblank, hline]
  | tooBig mtu =>
    rw [toList_tooBig]
    simp [hblank, hline]

theorem length_display {failure : Unreachable} (h : ∀ name, failure ≠ .marker name) :
    2 < failure.display.toList.length := by
  cases failure with
  | marker name => exact absurd rfl (h name)
  | code c =>
    rw [toList_code]
    simp only [List.length_cons, List.length_append, List.length_nil]
    omega
  | other t c =>
    rw [toList_other]
    simp only [List.length_cons, List.length_append, List.length_nil]
    omega
  | tooBig mtu =>
    rw [toList_tooBig]
    simp only [List.length_cons]
    omega

theorem decimal_inj {m n : Nat} (h : Nat.toDigits 10 m = Nat.toDigits 10 n) : m = n :=
  toDigits_injective (by decide) (by decide) h

theorem marker_ne {failure : Unreachable} (hname : name ∈ markers)
    (h : ∀ name, failure ≠ .marker name) :
    (Unreachable.marker name).display.toList ≠ failure.display.toList := by
  intro hchars
  have hlen := congrArg List.length hchars
  rw [show (Unreachable.marker name).display = name from rfl,
    (marker_toList name hname).2.1] at hlen
  exact absurd (length_display h) (by omega)

theorem dash_not_mem (n : Nat) : '-' ∉ Nat.toDigits 10 n ++ ['>'] := by
  have hdigits : '-' ∉ Nat.toDigits 10 n := not_mem_decimal (by decide)
  simpa using hdigits

theorem code_ne_other (c t c' : UInt8) :
    (Unreachable.code c).display.toList ≠ (Unreachable.other t c').display.toList := by
  intro h
  rw [toList_code, toList_other] at h
  simp only [List.cons.injEq, true_and] at h
  refine dash_not_mem c.toNat ?_
  rw [h]
  exact List.mem_append_right _ List.mem_cons_self

theorem code_ne_tooBig (c : UInt8) (mtu : UInt32) :
    (Unreachable.code c).display.toList ≠ (Unreachable.tooBig mtu).display.toList := by
  rw [toList_code, toList_tooBig]
  simp

theorem other_ne_tooBig (t c : UInt8) (mtu : UInt32) :
    (Unreachable.other t c).display.toList ≠ (Unreachable.tooBig mtu).display.toList := by
  rw [toList_other, toList_tooBig]
  simp

theorem other_inj {t c t' c' : UInt8}
    (h : (Unreachable.other t c).display.toList = (Unreachable.other t' c').display.toList) :
    t = t' ∧ c = c' := by
  rw [toList_other, toList_other] at h
  simp only [List.cons.injEq, true_and] at h
  have hfirst (n : Nat) : '-' ∉ Nat.toDigits 10 n := not_mem_decimal (by decide)
  have hsplit := congrArg (List.splitOn '-') h
  rw [List.splitOn_append_cons_self_of_not_mem (hfirst _),
    List.splitOn_append_cons_self_of_not_mem (hfirst _),
    List.splitOn_eq_singleton (dash_not_mem _),
    List.splitOn_eq_singleton (dash_not_mem _)] at hsplit
  simp only [List.cons.injEq, and_true] at hsplit
  obtain ⟨ht, hc⟩ := hsplit
  exact ⟨UInt8.toNat_inj.mp (decimal_inj ht),
    UInt8.toNat_inj.mp (decimal_inj (List.append_inj_left' hc rfl))⟩

theorem Made.display_inj {a b : Unreachable} (ha : a.Made) (hb : b.Made)
    (h : a.display = b.display) : a = b := by
  have hchars := congrArg String.toList h
  cases a with
  | marker name =>
    cases b with
    | marker name' => exact congrArg marker h
    | _ => exact absurd hchars (marker_ne ha nofun)
  | code c =>
    cases b with
    | marker name => exact absurd hchars.symm (marker_ne hb nofun)
    | code c' =>
      rw [toList_code, toList_code] at hchars
      simp only [List.cons.injEq, true_and] at hchars
      rw [UInt8.toNat_inj.mp (decimal_inj (List.append_inj_left' hchars rfl))]
    | other t c' => exact absurd hchars (code_ne_other c t c')
    | tooBig mtu => exact absurd hchars (code_ne_tooBig c mtu)
  | other t c =>
    cases b with
    | marker name => exact absurd hchars.symm (marker_ne hb nofun)
    | code c' => exact absurd hchars.symm (code_ne_other c' t c)
    | other t' c' =>
      obtain ⟨rfl, rfl⟩ := other_inj hchars
      rfl
    | tooBig mtu => exact absurd hchars (other_ne_tooBig t c mtu)
  | tooBig mtu =>
    cases b with
    | marker name => exact absurd hchars.symm (marker_ne hb nofun)
    | code c => exact absurd hchars.symm (code_ne_tooBig c mtu)
    | other t c => exact absurd hchars.symm (other_ne_tooBig t c mtu)
    | tooBig mtu' =>
      rw [toList_tooBig, toList_tooBig] at hchars
      simp only [List.cons.injEq, true_and] at hchars
      rw [UInt32.toNat_inj.mp (decimal_inj hchars)]

end Unreachable

section Kinds

variable {failure : Unreachable}

theorem IcmpError.kind_made (error : IcmpError) (h : error.kind = .unreachable failure) :
    failure.Made := by
  cases error with
  | v4 icmpType code info =>
    simp only [kind] at h
    split at h <;> cases h <;> simp [Unreachable.Made, Unreachable.markers]
  | v6 icmpType code info =>
    simp only [kind] at h
    split at h <;> cases h <;> simp [Unreachable.Made, Unreachable.markers]

theorem errorReplies_made (h : (errorReplies identify).classify reply = .unreachable failure) :
    failure.Made := by
  cases herror : reply.error with
  | none =>
    simp only [errorReplies, herror] at h
    cases h
    simp [Unreachable.Made, Unreachable.markers]
  | some error =>
    simp only [errorReplies, herror] at h
    exact error.kind_made h

theorem MethodArg.classify_made {arg : MethodArg} {reply : Reply}
    (hbuild : arg.build pnet system target packetLen = .ok method) (hqueue : queue ∈ method.queues)
    (h : queue.replies.classify reply = .unreachable failure) : failure.Made := by
  have hmethod := MethodArg.build_ok hbuild
  cases arg with
  | icmp =>
    obtain ⟨icmp, rfl⟩ := hmethod
    rcases List.mem_pair.mp hqueue with rfl | rfl
    · cases h
    · exact errorReplies_made h
  | udp =>
    obtain ⟨udp, rfl⟩ := hmethod
    rcases List.mem_pair.mp hqueue with rfl | rfl
    · cases h
    · exact errorReplies_made h
  | tcp =>
    obtain ⟨tcp, rfl⟩ := hmethod
    rcases List.mem_pair.mp hqueue with rfl | rfl
    · cases h
    · exact errorReplies_made h

end Kinds

namespace RunArgs

variable {host : Host} {uring : RecvMsgOutApi host} {slab : SlabApi Outgoing} {args : RunArgs}
  {arg : MethodArg} {failure : Unreachable}

theorem Processes.completed_reader {w : World slab} (h : args.Processes uring labels w)
    (hc : c ∈ completions labels) (hreader : c.1.reader? = some reader) :
    reader ∈ args.readers host := by
  obtain ⟨st, hstart, hpath⟩ := h
  revert hc hreader
  revert c
  refine hpath.history
    (I := fun ls _ => ∀ {c : Sqe × Event}, c ∈ completions ls → c.1.reader? = some reader →
      reader ∈ args.readers host) (fun hc => absurd hc List.not_mem_nil) ?_
  intro ls t l u hls hbefore hstep c hc hreader
  have ht : args.Processes uring ls t := ⟨st, hstart, hls⟩
  rw [completions_append] at hc
  rcases List.mem_append.mp hc with hc | hc
  · exact hbefore hc hreader
  · cases hstep with
    | @complete st event st' failed front entry back tag hok =>
      cases List.mem_singleton.mp hc
      have hs := ht.invariant.sound_complete
      exact hs.reads.mem_iff.mp (List.mem_filterMap.mpr ⟨entry, List.mem_cons_self, hreader⟩)
    | _ => exact absurd hc List.not_mem_nil

theorem Processes.made {w : World slab} (h : args.Processes uring labels w)
    (hbuild : arg.build pnet system target packetLen = .ok args.method)
    (hp : probe ∈ w.run.probes) (hr : probe.result = some result)
    (hfailure : result.kind.failure = some failure) : failure.Made := by
  obtain ⟨i, hi⟩ := List.mem_iff_getElem?.mp hp
  obtain ⟨probe', hp', _, hspecified⟩ := h.specified_of_lt (ttl?_lt (h.ttl? hi))
  rw [hi] at hp'
  cases hp'
  rw [hr] at hspecified
  obtain ⟨sentAt, c, ⟨reader, reply, now⟩, _, hc, ha, rfl⟩ := resultOf_cases hspecified.symm
  have hreader := h.completed_reader hc (answer?_cases ha).1
  obtain ⟨j, hj⟩ := List.mem_iff_getElem?.mp hreader
  obtain ⟨queue, hqueue, rfl⟩ := readersOf_get hj
  change (queue.replies.classify reply).failure = some failure at hfailure
  have hkind : queue.replies.classify reply = .unreachable failure := by
    cases hkind : queue.replies.classify reply with
    | unreachable reason =>
      rw [hkind] at hfailure
      exact congrArg ReplyKind.unreachable (Option.some.inj hfailure)
    | _ =>
      rw [hkind] at hfailure
      cases hfailure
  exact MethodArg.classify_made hbuild (List.mem_of_getElem? hqueue) hkind

end RunArgs

end Ringroute
