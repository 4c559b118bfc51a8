import Ringroute.Args
import Ringroute.Net.Cmsg

namespace Ringroute
open Library
set_option autoImplicit true

def ipHeaderLen : IpAddr → Nat
  | .v4 _ => minIpv4HeaderLen
  | .v6 _ => ipv6HeaderLength

/-- The packet sizes whose replies have a buffer of a length that `usize` holds. -/
def SizeFits (host : Host) (target : IpAddr) (packetLen : Nat) : MethodArg → Prop
  | .icmp => packetLen + recvmsgOverhead host ≤ host.usizeMax + ipHeaderLen target
  | .udp => packetLen + recvmsgOverhead host ≤ host.usizeMax + ipHeaderLen target + udpHeaderLen
  | .tcp => True

section Buffer

variable {host : Host}

theorem recverrControlLen_bounds (host : Host) :
    56 ≤ recverrControlLen host ∧ recverrControlLen host ≤ 64 := by
  rcases host with ⟨_ | _, word, h | h⟩ <;> subst h <;> decide

theorem recvmsgOverhead_le (host : Host) : recvmsgOverhead host ≤ 108 := by
  have hle := (recverrControlLen_bounds host).2
  simp only [recvmsgOverhead, sizeOfRecvmsgOut, nameLen, sizeOfSockaddrIn6]
  omega

theorem Icmp.maxReplyLen_tryNew {target : IpAddr} {icmp : Icmp}
    (h : Icmp.tryNew target packetLen = .ok icmp) :
    icmp.maxReplyLen + ipHeaderLen target = packetLen := by
  rw [Icmp.tryNew] at h
  split at h
  · rename_i hle
    cases h
    simp only [Icmp.maxReplyLen, Icmp.minPacketLen] at hle ⊢
    cases target <;> simp only [ipHeaderLen] at hle ⊢ <;> omega
  · cases h

theorem Udp.maxReplyLen_tryNew {target : IpAddr} {udp : Udp}
    (h : Udp.tryNew target packetLen = .ok udp) :
    udp.maxReplyLen + ipHeaderLen target + udpHeaderLen = packetLen := by
  rw [Udp.tryNew] at h
  split at h
  · rename_i hle
    cases h
    simp only [Udp.maxReplyLen, Udp.minPacketLen] at hle ⊢
    cases target <;> simp only [ipHeaderLen] at hle ⊢ <;> omega
  · cases h

theorem Tcp.maxReplyLen_le (tcp : Tcp) : tcp.maxReplyLen ≤ 40 := by
  simp only [Tcp.maxReplyLen, minIpv4HeaderLen, tcpMinHeaderLen]
  split <;> omega

theorem maxReplyLen_fits_iff {arg : MethodArg}
    (hbuild : arg.build pnet system target packetLen = .ok method) :
    recvmsgOverhead host + method.maxReplyLen ≤ host.usizeMax ↔
      SizeFits host target packetLen arg := by
  cases arg with
  | icmp =>
    obtain ⟨icmp, hnew, rfl⟩ := except_map_eq_ok hbuild
    have hlen := Icmp.maxReplyLen_tryNew hnew
    change _ + icmp.maxReplyLen ≤ _ ↔ packetLen + _ ≤ _
    omega
  | udp =>
    obtain ⟨udp, hnew, rfl⟩ := except_map_eq_ok hbuild
    have hlen := Udp.maxReplyLen_tryNew hnew
    change _ + udp.maxReplyLen ≤ _ ↔ packetLen + _ ≤ _
    omega
  | tcp =>
    obtain ⟨tcp, _, rfl⟩ := except_map_eq_ok hbuild
    have hlen := tcp.maxReplyLen_le
    have hover := recvmsgOverhead_le host
    have hbig := host.lt_isizeMax
    have hmax := host.usizeMax_eq
    refine iff_of_true ?_ trivial
    change _ + tcp.maxReplyLen ≤ _
    omega

theorem bufferLen_ok_iff :
    (∃ len, bufferLen overflowChecks host method = .ok len) ↔
      (overflowChecks = true → recvmsgOverhead host + method.maxReplyLen ≤ host.usizeMax) := by
  simp only [bufferLen, operator_eq_ok_iff, decide_eq_true_eq]
  exact ⟨fun ⟨_, hfits, _⟩ => hfits, fun hfits => ⟨_, hfits, rfl⟩⟩

theorem bufferLen_of_fits (hfits : recvmsgOverhead host + method.maxReplyLen ≤ host.usizeMax) :
    bufferLen overflowChecks host method = .ok (recvmsgOverhead host + method.maxReplyLen) :=
  operator_eq_ok_iff.mpr
    ⟨fun _ => decide_eq_true hfits, Nat.mod_eq_of_lt (Nat.lt_succ_of_le hfits)⟩

theorem bufferLen_eq (h : bufferLen true host method = .ok len) :
    len = recvmsgOverhead host + method.maxReplyLen := by
  have hfits := bufferLen_ok_iff.mp ⟨len, h⟩ rfl
  rw [bufferLen_of_fits hfits] at h
  exact (Except.ok.inj h).symm

end Buffer

namespace RunArgs

variable {args : RunArgs} {host : Host} {slab : SlabApi Outgoing}

/-- Every number of the set-up is what the operations on machine integers make of it. -/
structure SetUpExact (args : RunArgs) (host : Host) (slab : SlabApi Outgoing) : Prop where
  sizes : ∃ sizes,
    (∀ env : Environment, env.Opens →
      Ringroute.sizes env host args.method args.initialProbes = .ok sizes) ∧
    sizes.ringEntries.toNat = args.ringSize ∧
    sizes.buffers.toNat = 2 * args.initialProbes.length ∧
    recvmsgOverhead host + args.method.maxReplyLen ≤ sizes.bufferLen
  /-- The probe of an index is numbered with it. -/
  indices : ∀ i < args.initialProbes.length, (UInt16.ofNat i).toNat = i
  readers : ∀ i < args.method.queues.length, (UInt16.ofNat i).toNat = i
  /-- The write of a slab entry is tagged with its key. -/
  slots : ∃ st pending, (∀ env : Environment, env.Opens → args.setup env host slab = .ok st) ∧
    Ready host slab args.method args.first args.last args.timeout args.count st pending ∧
    ∀ entry ∈ pending, (UInt16.ofNat entry.1).toNat = entry.1
  ports : ∀ i < args.initialProbes.length, (overflowingAdd startPort (UInt16.ofNat i)).2 = false

theorem Admitted.sizes_ok (h : args.Admitted)
    (hfits : recvmsgOverhead host + args.method.maxReplyLen ≤ host.usizeMax) :
    ∃ sizes, (∀ env : Environment, env.Opens →
        Ringroute.sizes env host args.method args.initialProbes = .ok sizes) ∧
      sizes.ringEntries.toNat = args.ringSize ∧
      sizes.buffers.toNat = 2 * args.initialProbes.length ∧
      recvmsgOverhead host + args.method.maxReplyLen ≤ sizes.bufferLen := by
  have hcount := h.probeCount_le
  have hsize := args.ringSize_eq
  rw [← args.length_initialProbes] at hcount hsize
  have hnat : (UInt16.ofNat args.initialProbes.length).toNat = args.initialProbes.length :=
    UInt16.toNat_ofNat_of_lt' (by change _ < 2 ^ 16; omega)
  have htwo : (2 : UInt16).toNat = 2 := rfl
  refine ⟨⟨UInt32.ofNat args.ringSize, 2 * UInt16.ofNat args.initialProbes.length,
    recvmsgOverhead host + args.method.maxReplyLen⟩, ?_, ?_, ?_, Nat.le_refl _⟩
  · intro env hopens
    exact hopens.sizes (by omega) (fun _ => by omega) (bufferLen_of_fits hfits)
  · exact UInt32.toNat_ofNat_of_lt' (by change _ < 2 ^ 32; omega)
  · rw [UInt16.toNat_mul, hnat, htwo]
    omega

/-- Set-up goes through for all arguments let through if and only if the system opens everything
and the length of the buffers passes the check of a build that makes it. -/
theorem Admitted.setup_ok_iff (h : args.Admitted) (env : Environment) (slab : SlabApi Outgoing) :
    (∃ st, args.setup env host slab = .ok st) ↔
      env.Opens ∧ (env.overflowChecks = true →
        recvmsgOverhead host + args.method.maxReplyLen ≤ host.usizeMax) := by
  constructor
  · rintro ⟨st, hsetup⟩
    obtain ⟨hopens, found, hsizes, _⟩ := setup_eq_ok hsetup
    obtain ⟨_, _, _, _, hlen⟩ := sizes_eq_ok hsizes
    exact ⟨hopens, bufferLen_ok_iff.mp ⟨_, hlen⟩⟩
  · rintro ⟨hopens, hfits⟩
    obtain ⟨len, hlen⟩ := bufferLen_ok_iff.mpr hfits
    have hcount := h.probeCount_le
    rw [← args.length_initialProbes] at hcount
    have hlt : args.initialProbes.length < 2 ^ 16 := by omega
    have hdouble : 2 * args.initialProbes.length < 2 ^ 16 := by omega
    exact hopens.setup slab args.timeout (hopens.sizes hlt (fun _ => hdouble) hlen)

/-- Set-up computes exactly for all arguments let through if and only if the packet size leaves
`usize` the room for the length of a buffer. -/
theorem Admitted.setUpExact_iff (h : args.Admitted) {arg : MethodArg}
    (hbuild : arg.build pnet system target packetLen = .ok args.method) :
    args.SetUpExact host slab ↔ SizeFits host target packetLen arg := by
  have hcount := h.probeCount_le
  have hlt := h.probeCount_lt
  rw [← args.length_initialProbes] at hcount hlt
  have hindex (i : Nat) (hi : i < args.initialProbes.length) : (UInt16.ofNat i).toNat = i :=
    UInt16.toNat_ofNat_of_lt' (Nat.lt_trans hi hlt)
  rw [← maxReplyLen_fits_iff hbuild]
  constructor
  · intro hexact
    obtain ⟨sizes, hsizes, _⟩ := hexact.sizes
    obtain ⟨_, _, _, _, hlen⟩ := sizes_eq_ok (hsizes _ (Environment.opens_opening true))
    exact bufferLen_ok_iff.mp ⟨_, hlen⟩ rfl
  · intro hfits
    obtain ⟨st, hsetup⟩ :=
      (h.setup_ok_iff _ slab).mpr ⟨Environment.opens_opening true, fun _ => hfits⟩
    obtain ⟨pending, hready⟩ := setup_ready hsetup
    refine ⟨h.sizes_ok hfits, hindex, ?_, ⟨st, pending, ?_, hready, ?_⟩, ?_⟩
    · intro i hi
      rw [args.method.queues_length] at hi
      exact UInt16.toNat_ofNat_of_lt' (by change _ < 2 ^ 16; omega)
    · intro env hopens
      obtain ⟨st', hsetup'⟩ := (h.setup_ok_iff env slab).mpr ⟨hopens, fun _ => hfits⟩
      rw [setup_unique hsetup hsetup']
      exact hsetup'
    · intro entry hmem
      exact UInt16.toNat_ofNat_of_lt' (hready.keys_lt entry hmem)
    · intro i hi
      have hstart : startPort.toNat = 33434 := rfl
      simp only [overflowingAdd, hindex i hi, hstart, decide_eq_false_iff_not]
      omega

/-- Packets of the default size leave the room. -/
theorem setUpExact_default : (loopback 1 30 3).SetUpExact .x86_64 (.vec Outgoing) := by
  have hadmitted : (loopback 1 30 3).Admitted := ⟨by decide, by decide, by decide, by decide⟩
  have hbuild : MethodArg.icmp.build Pnet.layout loopbackSystem loopbackAddr 60 =
      .ok (loopback 1 30 3).method := rfl
  have hfits : SizeFits .x86_64 loopbackAddr 60 .icmp := by
    change 60 + recvmsgOverhead .x86_64 ≤ Host.usizeMax .x86_64 + 20
    decide
  exact (Admitted.setUpExact_iff hadmitted hbuild).mpr hfits

/-- The largest packet size is let through, and the length of the buffers passes `usize::MAX`. A
build that checks for it panics, any other makes the buffers too short. -/
theorem largest_size_overflows :
    let icmp : Icmp := ⟨loopbackAddr, 2 ^ 64 - 29⟩
    let args : RunArgs := { loopback 1 30 3 with method := icmp.method }
    Icmp.tryNew loopbackAddr (2 ^ 64 - 1) = .ok icmp ∧ args.Admitted ∧
      args.setup (.opening true) .x86_64 (.vec Outgoing) = .error .overflow ∧
      bufferLen false .x86_64 args.method = .ok 87 ∧
      ¬ args.SetUpExact .x86_64 (.vec Outgoing) := by
  intro icmp args
  have hadmitted : args.Admitted := ⟨by decide, by decide, by decide, by decide⟩
  have hbuild : MethodArg.icmp.build Pnet.layout loopbackSystem loopbackAddr (2 ^ 64 - 1) =
      .ok args.method := rfl
  have hwrapped :
      (recvmsgOverhead .x86_64 + icmp.maxReplyLen) % (Host.usizeMax .x86_64 + 1) = 87 := by decide
  refine ⟨rfl, hadmitted, rfl, congrArg Except.ok hwrapped, ?_⟩
  rw [Admitted.setUpExact_iff hadmitted hbuild]
  change ¬ 2 ^ 64 - 1 + recvmsgOverhead .x86_64 ≤ Host.usizeMax .x86_64 + 20
  decide

end RunArgs

end Ringroute
