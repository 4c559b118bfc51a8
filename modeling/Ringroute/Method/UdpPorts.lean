import Ringroute.Method.Udp

namespace Ringroute
open Library
set_option autoImplicit true

namespace Udp

/-- The destination port `probe` chooses. -/
def portOf (id : ProbeId) : UInt16 :=
  let (port, overflowed) := overflowingAdd startPort id.id
  if overflowed then port + 1 else port

theorem probe_address (udp : Udp) (id : ProbeId) :
    (udp.probe id).2 = .inet (SocketAddr.new udp.target (portOf id)) := rfl

theorem portOf_toNat (id : ProbeId) :
    (portOf id).toNat =
      if id.id.toNat ≤ 32101 then 33434 + id.id.toNat else id.id.toNat - 32101 := by
  have hid : id.id.toNat < 65536 := id.id.toNat_lt
  have hstart : startPort.toNat = 33434 := rfl
  by_cases h : id.id.toNat ≤ 32101
  · have hnot : ¬ 2 ^ 16 ≤ startPort.toNat + id.id.toNat := by omega
    simp only [portOf, overflowingAdd, hnot, decide_false, Bool.false_eq_true, if_false, if_pos h,
      UInt16.toNat_add]
    omega
  · have hover : 2 ^ 16 ≤ startPort.toNat + id.id.toNat := by omega
    have hone : (1 : UInt16).toNat = 1 := rfl
    simp only [portOf, overflowingAdd, hover, decide_true, if_true, if_neg h, UInt16.toNat_add,
      hone]
    omega

theorem portOf_ne_zero (id : ProbeId) : portOf id ≠ 0 := by
  intro h
  have hp := portOf_toNat id
  rw [h] at hp
  change 0 = _ at hp
  split at hp <;> omega

theorem checkedSub_portOf (id : ProbeId) :
    checkedSub (portOf id) startPort =
      if id.id.toNat ≤ 32101 then some id.id
      else if id.id = 65535 then some 0 else none := by
  have hid : id.id.toNat < 65536 := id.id.toNat_lt
  have hp := portOf_toNat id
  have hstart : startPort.toNat = 33434 := rfl
  have hlast : id.id = 65535 ↔ id.id.toNat = 65535 :=
    ⟨fun h => h ▸ rfl, fun h => UInt16.toNat_inj.mp h⟩
  simp only [checkedSub, UInt16.le_iff_toNat_le, hlast]
  by_cases h : id.id.toNat ≤ 32101
  · rw [if_pos h] at hp ⊢
    rw [if_pos (by omega)]
    congr 1
    apply UInt16.toNat_inj.mp
    rw [UInt16.toNat_sub_of_le _ _ (UInt16.le_iff_toNat_le.mpr (by omega)), hp, hstart]
    omega
  · rw [if_neg h] at hp ⊢
    by_cases he : id.id.toNat = 65535
    · rw [if_pos he, if_pos (by omega)]
      congr 1
      apply UInt16.toNat_inj.mp
      rw [UInt16.toNat_sub_of_le _ _ (UInt16.le_iff_toNat_le.mpr (by omega)), hp, hstart, he]
      rfl
    · rw [if_neg he, if_neg (by omega)]

theorem identifyFromError_port {id : ProbeId} (h : reply.destination = some (.inet socket))
    (hport : socket.port = portOf id) :
    identifyFromError reply = (checkedSub (portOf id) startPort).map ProbeId.mk := by
  simp only [identifyFromError, h, SockAddr.asSocket, Option.bind_eq_bind, Option.bind_some, hport]

theorem identify_port {target : IpAddr} {id : ProbeId} (h : reply.source = some (.inet socket))
    (hip : socket.ip = target) (hport : socket.port = portOf id) :
    (udpReplies target).identify reply = (checkedSub (portOf id) startPort).map ProbeId.mk := by
  simp only [udpReplies, h, SockAddr.asSocket, Option.bind_eq_bind, Option.bind_some, hip, hport,
    ne_eq, not_true_eq_false, if_false]
  cases checkedSub (portOf id) startPort <;> rfl

theorem checkedSub_portOf_eq_iff (id : ProbeId) :
    (checkedSub (portOf id) startPort).map ProbeId.mk = some id ↔ id.id.toNat ≤ 32101 := by
  rw [checkedSub_portOf]
  by_cases h : id.id.toNat ≤ 32101
  · rw [if_pos h]
    exact iff_of_true rfl h
  · rw [if_neg h]
    refine iff_of_false ?_ h
    by_cases he : id.id = 65535
    · rw [if_pos he]
      intro hs
      have hz : (0 : UInt16) = id.id := congrArg ProbeId.id (Option.some.inj hs)
      rw [← hz] at he
      cases he
    · rw [if_neg he]
      intro hs
      cases hs

theorem portOf_eq_iff (i j : ProbeId) :
    portOf i = portOf j ↔
      i = j ∨ (i.id = 0 ∧ j.id = 65535) ∨ (i.id = 65535 ∧ j.id = 0) := by
  have hi : i.id.toNat < 65536 := i.id.toNat_lt
  have hj : j.id.toNat < 65536 := j.id.toNat_lt
  have he : i = j ↔ i.id.toNat = j.id.toNat := by
    cases i; cases j
    simp only [ProbeId.mk.injEq, UInt16.toNat_inj]
  have hz (x : UInt16) : x = 0 ↔ x.toNat = 0 := ⟨fun h => h ▸ rfl, fun h => UInt16.toNat_inj.mp h⟩
  have hl (x : UInt16) : x = 65535 ↔ x.toNat = 65535 :=
    ⟨fun h => h ▸ rfl, fun h => UInt16.toNat_inj.mp h⟩
  rw [← UInt16.toNat_inj, portOf_toNat, portOf_toNat, he, hz, hz, hl, hl]
  split <;> split <;> omega

/-- Udp's decoders invert its addressing on the ids whose port does not wrap, and on no other id.
Two ids share a port exactly when they are the two ends of the id space. -/
theorem replies_invert_probe_iff (udp : Udp) (id : ProbeId) :
    ((∀ socket, (udp.probe id).2 = .inet socket → socket.port ≠ 0) ∧
      (∀ reply : Reply, reply.destination = some (udp.probe id).2 →
        identifyFromError reply = some id) ∧
      (∀ reply : Reply, reply.source = some (udp.probe id).2 →
        (udpReplies udp.target).identify reply = some id) ↔
      id.id.toNat ≤ 32101) ∧
    (∀ other : ProbeId, other ≠ id →
      ((udp.probe other).2 ≠ (udp.probe id).2 ↔
        ¬ (other.id = 0 ∧ id.id = 65535 ∨ other.id = 65535 ∧ id.id = 0))) := by
  constructor
  · constructor
    · rintro ⟨_, herr, _⟩
      have hid := herr ⟨none, some (udp.probe id).2, [], none⟩ rfl
      rw [@identifyFromError_port _ _ id rfl (SocketAddr.new_port ..)] at hid
      exact (checkedSub_portOf_eq_iff id).mp hid
    · intro h
      have hid := (checkedSub_portOf_eq_iff id).mpr h
      refine ⟨?_, ?_, ?_⟩
      · intro socket hs
        rw [probe_address] at hs
        cases hs
        rw [SocketAddr.new_port]
        exact portOf_ne_zero id
      · intro reply hr
        exact (identifyFromError_port hr (SocketAddr.new_port ..)).trans hid
      · intro reply hr
        exact (identify_port hr (SocketAddr.new_ip ..) (SocketAddr.new_port ..)).trans hid
  · intro other hne
    have hshare := portOf_eq_iff other id
    simp only [hne, false_or] at hshare
    rw [probe_address, probe_address, ne_eq, not_iff_not, ← hshare]
    constructor
    · intro h
      have hs := SockAddr.inet.inj h
      simpa only [SocketAddr.new_port] using congrArg SocketAddr.port hs
    · intro h
      rw [h]

/-- The first wrapped probe goes to port 1 and its replies are dropped; the last id shares the
start port with the first, which its replies are credited to. -/
theorem wrapped_probe_not_identified :
    let udp : Udp := ⟨.v4 .localhost, 32⟩
    (udp.probe ⟨32102⟩).2 = .inet (SocketAddr.new udp.target 1) ∧
    identifyFromError ⟨none, some (udp.probe ⟨32102⟩).2, [], none⟩ = none ∧
    (udpReplies udp.target).identify ⟨some (udp.probe ⟨32102⟩).2, none, [], none⟩ = none ∧
    (udp.probe ⟨65535⟩).2 = (udp.probe ⟨0⟩).2 ∧
    identifyFromError ⟨none, some (udp.probe ⟨65535⟩).2, [], none⟩ = some ⟨0⟩ := by
  decide

end Udp

end Ringroute
