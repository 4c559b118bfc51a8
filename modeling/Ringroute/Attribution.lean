import Ringroute.HopLine
import Ringroute.Reordering

namespace Ringroute
open Library
set_option autoImplicit true

/-- A message is laid out for the kernel to send its packet to its destination with a hop limit. The
limit is in a control message of one `c_int`, at level `IPPROTO_IP` and of type `IP_TTL` for an IPv4
destination, at level `IPPROTO_IPV6` and of type `IPV6_HOPLIMIT` for an IPv6 one. -/
structure Outgoing.Limits (host : Host) (outgoing : Outgoing) (ttl : UInt8) : Prop where
  iovLen : outgoing.iovLen = outgoing.packet.length
  ipv4 (addr : SocketAddrV4) : outgoing.destination = .inet (.v4 addr) →
    outgoing.msg.msgNamelen = 16 ∧ outgoing.control.header.cmsgLevel = 0 ∧
      outgoing.control.header.cmsgType = 2
  ipv6 (addr : SocketAddrV6) : outgoing.destination = .inet (.v6 addr) →
    outgoing.msg.msgNamelen = 28 ∧ outgoing.control.header.cmsgLevel = 41 ∧
      outgoing.control.header.cmsgType = 52
  hopLimit : outgoing.control.hopLimit.toInt = ttl.toNat
  bits32 : host.word = 4 → outgoing.control.header.cmsgLen = 16 ∧ outgoing.msg.msgControllen = 16
  bits64 : host.word = 8 → outgoing.control.header.cmsgLen = 20 ∧ outgoing.msg.msgControllen = 24

/-- A write sends probe `i` with a hop limit, under the tag of its send buffers in the slab. -/
structure SendsProbe (host : Host) (slab : SlabApi Outgoing) (method : Method)
    (sending : slab.Slab) (i : Nat) (ttl : UInt8) (entry : Sqe) (outgoing : Outgoing) : Prop where
  opcode : entry.opcode = .sendMsg outgoing
  packet : (outgoing.packet, outgoing.destination) = method.probe ⟨UInt16.ofNat i⟩
  control : outgoing.control = HopLimitControl.new host outgoing.destination.isIpv6 ttl
  limits : outgoing.Limits host ttl
  state : entry.userData.state = some .write
  slot : slab.get sending entry.userData.slot.toNat = some outgoing
  probe : outgoing.probe = ⟨UInt16.ofNat i⟩
  index : outgoing.probe.index = i

/-- The probes of the hop at a place in the range. -/
def hopSlice (count : UInt16) (probes : List Probe) (k : Nat) : List Probe :=
  (probes.drop (k * count.toNat)).take count.toNat

theorem Outgoing.new_limits (host : Host) (packet : Bytes) (destination : SockAddr) (ttl : UInt8)
    (probe : ProbeId) : (Outgoing.new host packet destination ttl probe).Limits host ttl := by
  have hlen : (Outgoing.new host packet destination ttl probe).control.header.cmsgLen =
      host.sizeOfCmsghdr + 4 := by
    cases hfamily : destination.isIpv6 <;>
      simp only [Outgoing.new, HopLimitControl.new, hfamily, cmsgHeaderLen_eq]
  refine ⟨rfl, ?_, ?_, ?_, ?_, ?_⟩
  · intro addr hv4
    obtain rfl : destination = _ := hv4
    exact ⟨rfl, rfl, rfl⟩
  · intro addr hv6
    obtain rfl : destination = _ := hv6
    exact ⟨rfl, rfl, rfl⟩
  · exact Int32.toInt_ofNat_of_lt (Nat.lt_trans ttl.toNat_lt (by decide))
  · intro hword
    rw [hlen]
    simp only [Outgoing.new, sizeOfHopLimitControl, Host.align, Host.sizeOfCmsghdr, hword]
    decide
  · intro hword
    rw [hlen]
    simp only [Outgoing.new, sizeOfHopLimitControl, Host.align, Host.sizeOfCmsghdr, hword]
    decide

section Laid

variable {first last : UInt8} {count : UInt16} {probes : List Probe}

theorem Laid.length (h : Laid first last count probes) :
    probes.length = (last.toNat + 1 - first.toNat) * count.toNat := by
  have hlen := congrArg List.length (h.trans initialProbes_laid.symm)
  rw [List.length_map, List.length_map, length_initialProbes] at hlen
  exact hlen

theorem Laid.ttl (h : Laid first last count probes) (hcount : 0 < count.toNat)
    (hp : probes[i]? = some probe) : probe.ttl.toNat = first.toNat + i / count.toNat := by
  have hget := congrArg (·[i]?) h
  simp only [List.getElem?_map, hp, Option.map_some, getElem?_blocks hcount] at hget
  exact (hopRange_getElem? hget.symm).2

theorem hopsOf_slices (h : Laid first last count probes) (hcount : 0 < count.toNat) :
    hopsOf probes =
      (List.range (last.toNat + 1 - first.toNat)).map (hopSlice count probes) := by
  have hsplit := splitBy_slices hcount (nodup_hopRange first last) h
  rw [length_hopRange] at hsplit
  exact hsplit

theorem Laid.hopSlice_ttl (h : Laid first last count probes) (hcount : 0 < count.toNat)
    (hk : k < last.toNat + 1 - first.toNat) :
    ∃ t : UInt8, t.toNat = first.toNat + k ∧
      (hopSlice count probes k).map Probe.ttl = List.replicate count.toNat t := by
  have hlt : k < (hopRange first last).length := by rwa [length_hopRange]
  have hget := List.getElem?_eq_getElem hlt
  refine ⟨_, (hopRange_getElem? hget).2, ?_⟩
  rw [hopSlice, List.map_take, List.map_drop, h]
  exact take_drop_blocks hcount hget

theorem mem_hopSlice (hcount : 0 < count.toNat) (h : probe ∈ hopSlice count probes k) :
    ∃ i, i / count.toNat = k ∧ probes[i]? = some probe := by
  obtain ⟨j, hj⟩ := List.mem_iff_getElem?.mp h
  rw [hopSlice, List.getElem?_take] at hj
  split at hj
  · rename_i hlt
    rw [List.getElem?_drop] at hj
    refine ⟨k * count.toNat + j, ?_, hj⟩
    rw [Nat.mul_comm, Nat.mul_add_div hcount, Nat.div_eq_of_lt hlt]
    rfl
  · cases hj

end Laid

section Sends

variable {host : Host} {uring : RecvMsgOutApi host} {slab : SlabApi Outgoing} {args : RunArgs}

theorem Ready.sendsProbe (h : Ready host slab method first last timeout count st pending)
    (hp : st.probes[i]? = some probe) (hi : pending[i]? = some (slot, o)) :
    SendsProbe host slab method st.sending i probe.ttl (writeEntry slot o) o := by
  obtain ⟨probe', hp', rfl, hindex⟩ := h.numbered hi
  rw [hp] at hp'
  cases hp'
  have hmem := List.mem_of_getElem? hi
  have hslot :
      (writeEntry slot (outgoingOf host method (probe, i))).userData.slot.toNat = slot := by
    rw [writeEntry, UserData.slot_tag]
    exact UInt16.toNat_ofNat_of_lt' (h.keys_lt _ hmem)
  refine ⟨rfl, rfl, rfl, Outgoing.new_limits .., UserData.state_tag _ _, ?_, rfl, hindex⟩
  · rw [hslot]
    exact (h.holds.get_iff _ _).mpr hmem

theorem Ready.sends (h : Ready host slab method first last timeout count st pending)
    (hp : st.probes[i]? = some probe) :
    ∃ slot outgoing, pending[i]? = some (slot, outgoing) ∧
      SendsProbe host slab method st.sending i probe.ttl (writeEntry slot outgoing) outgoing := by
  have hlt : i < pending.length := by
    rw [h.length_pending]
    exact (List.getElem?_eq_some_iff.mp hp).choose
  obtain ⟨⟨slot, outgoing⟩, hi⟩ : ∃ e, pending[i]? = some e := ⟨_, List.getElem?_eq_getElem hlt⟩
  exact ⟨slot, outgoing, hi, h.sendsProbe hp hi⟩

namespace RunArgs

/-- The write of probe `i` completes, and goes through. -/
def Sent (args : RunArgs) (host : Host) (sending : slab.Slab) (cs : List (Sqe × Event)) (i : Nat)
    (ttl : UInt8) : Prop :=
  ∃ entry event outgoing, (entry, event) ∈ cs ∧ event.cqe.result ≥ 0 ∧
    SendsProbe host slab args.method sending i ttl entry outgoing

theorem Processes.sendsProbe {w : World slab} {st : RunState slab}
    (h : args.Processes uring labels w) (hstart : args.Starts host st)
    (hmem : (entry, event) ∈ completions labels)
    (hi : entry.probe? = some i) :
    ∃ probe outgoing, st.probes[i]? = some probe ∧
      SendsProbe host slab args.method st.sending i probe.ttl entry outgoing := by
  obtain ⟨st', hstart', hout⟩ := h.set_up hmem hi
  obtain rfl := hstart.unique hstart'
  obtain ⟨pending, hready⟩ := hstart.ready
  rcases hready.mem_outstanding hout with ⟨m, _, rfl⟩ | ⟨j, slot, outgoing, hj, rfl⟩ | rfl
  · cases hi
  · obtain ⟨probe, hp, _, hindex⟩ := hready.numbered hj
    have hij : j = i := hindex.symm.trans (Option.some.inj hi)
    subst hij
    exact ⟨probe, outgoing, hp, hready.sendsProbe hp hj⟩
  · cases hi

theorem resultOf_sent {cs : List (Sqe × Event)} (h : resultOf uring i cs = some result) :
    ∃ entry event, (entry, event) ∈ cs ∧ entry.probe? = some i ∧ event.cqe.result ≥ 0 := by
  obtain ⟨⟨write, later⟩, hfrom, hbind⟩ := Option.bind_eq_some_iff.mp h
  obtain ⟨sentAt, hsent, _⟩ := Option.bind_eq_some_iff.mp hbind
  obtain ⟨entry, hmem, hp⟩ := fromWrite_mem hfrom
  refine ⟨entry, write, hmem, hp, ?_⟩
  by_contra hfailed
  rw [Event.sentAt, if_neg hfailed] at hsent
  cases hsent

theorem Processes.credited {w : World slab} {st : RunState slab} (h : args.Processes uring labels w)
    (hstart : args.Starts host st) (hcount : 0 < args.count.toNat) {t : UInt8}
    (ht : t.toNat = args.first.toNat + i / args.count.toNat)
    (hp : w.run.probes[i]? = some probe) (hr : probe.result = some result) :
    resultOf uring i (completions labels) = some result ∧
      args.Sent host st.sending (completions labels) i t := by
  have hi : i < args.probeCount := by
    rw [← h.length_probes]
    exact (List.getElem?_eq_some_iff.mp hp).choose
  obtain ⟨probe', hp', _, hresult⟩ := h.specified_of_lt hi
  rw [hp] at hp'
  cases hp'
  rw [hr] at hresult
  obtain ⟨entry, event, hmem, hwrite, hok⟩ := resultOf_sent hresult.symm
  obtain ⟨sentProbe, outgoing, hsent, hsends⟩ := h.sendsProbe hstart hmem hwrite
  obtain ⟨pending, hready⟩ := hstart.ready
  have hlaid : Laid args.first args.last args.count st.probes := hready.probes ▸ initialProbes_laid
  have hlimit : sentProbe.ttl = t := UInt8.toNat_inj.mp ((hlaid.ttl hcount hsent).trans ht.symm)
  exact ⟨hresult.symm, entry, event, outgoing, hmem, hok, hlimit ▸ hsends⟩

theorem line_of_hop {probes : List Probe} (h : Laid args.first args.last args.count probes)
    (hcount : 0 < args.count.toNat) (hline : line ∈ printResults probes) :
    ∃ k, line.ttl.toNat = args.first.toNat + k ∧
      line.pieces = printHopProbes none (hopSlice args.count probes k) := by
  rw [printResults, printHops_eq, hopsOf_slices h hcount] at hline
  obtain ⟨hop, hhop, rfl⟩ := List.mem_map.mp hline
  obtain ⟨k, hk, rfl⟩ := List.mem_map.mp (takeThrough_subset hhop)
  obtain ⟨t, ht, hall⟩ := h.hopSlice_ttl hcount (List.mem_range.mp hk)
  refine ⟨k, ?_, rfl⟩
  rw [← ht, printHop, hall]
  obtain ⟨n, hn⟩ := Nat.exists_eq_succ_of_ne_zero (Nat.ne_of_gt hcount)
  rw [hn]
  rfl

/-- Every hop gets its own probes, its own packets and its own results. The probes are set up hop by
hop and fall into these hops again; the write of each carries its packet, its hop limit and the tag
of its send buffers; and what a run reports on the line of a hop was credited to a probe that was
sent with that hop limit. -/
theorem hops_attributed (hcount : 1 ≤ args.count.toNat)
    (hsetup : args.setup env host slab = .ok st) :
    (st.probes.length = (args.last.toNat + 1 - args.first.toNat) * args.count.toNat ∧
      ∀ i probe, st.probes[i]? = some probe →
        probe.ttl.toNat = args.first.toNat + i / args.count.toNat) ∧
    (hopsOf st.probes =
        (List.range (args.last.toNat + 1 - args.first.toNat)).map
          (hopSlice args.count st.probes) ∧
      ∀ k < args.last.toNat + 1 - args.first.toNat, ∃ t : UInt8,
        t.toNat = args.first.toNat + k ∧
        (hopSlice args.count st.probes k).map Probe.ttl = List.replicate args.count.toNat t) ∧
    (∃ writes, st.sq.published =
        (args.readers host).map Multishot.entry ++ writes ++ [timeoutEntry args.timeout] ∧
      writes.length = st.probes.length ∧
      ∀ i probe, st.probes[i]? = some probe → ∃ entry outgoing, writes[i]? = some entry ∧
        SendsProbe host slab args.method st.sending i probe.ttl entry outgoing) ∧
    ∀ (uring : RecvMsgOutApi host) labels probes, args.Leaves uring slab labels probes →
      ∀ line ∈ printResults probes, ∃ k,
        line.ttl.toNat = args.first.toNat + k ∧
        line.pieces = printHopProbes none (hopSlice args.count probes k) ∧
        ∀ rtt failure, .result rtt failure ∈ line.pieces → ∃ i result,
          i / args.count.toNat = k ∧
          resultOf uring i (completions labels) = some result ∧
          result.rtt = rtt ∧ result.kind.failure = failure ∧
          args.Sent host st.sending (completions labels) i line.ttl := by
  obtain ⟨pending, hready⟩ := setup_ready hsetup
  have hlaid : Laid args.first args.last args.count st.probes := hready.probes ▸ initialProbes_laid
  refine ⟨⟨hlaid.length, fun i probe hp => hlaid.ttl hcount hp⟩,
    ⟨hopsOf_slices hlaid hcount, fun k hk => hlaid.hopSlice_ttl hcount hk⟩,
    ⟨writesOf pending, hready.published, ?_, ?_⟩, ?_⟩
  · rw [writesOf, List.length_map, hready.length_pending]
  · intro i probe hp
    obtain ⟨slot, outgoing, hpending, hsends⟩ := hready.sends hp
    refine ⟨writeEntry slot outgoing, outgoing, ?_, hsends⟩
    rw [writesOf, List.getElem?_map, hpending]
    rfl
  · intro uring labels probes hleaves line hline
    obtain ⟨w, hw, rfl⟩ := hleaves.processes
    obtain ⟨k, ht, hpieces⟩ := line_of_hop hw.laid hcount hline
    refine ⟨k, ht, hpieces, ?_⟩
    intro rtt failure hmem
    rw [hpieces] at hmem
    obtain ⟨probe, hprobe, result, hr, hrtt, hfailure⟩ := result_mem_printHopProbes hmem
    obtain ⟨i, hi, hp⟩ := mem_hopSlice hcount hprobe
    obtain ⟨hresult, hsent⟩ := hw.credited ⟨env, hsetup⟩ hcount (hi.symm ▸ ht) hp hr
    exact ⟨i, result, hi, hresult, hrtt, hfailure, hsent⟩

/-- The answer to the first probe stands on the line of hop 1, with whose hop limit it was sent. -/
theorem hops_attributed_loopback :
    ∃ st labels probes line,
      (loopback 1 2 1).setup (.opening true) .x86_64 (.vec Outgoing) = .ok st ∧
      (loopback 1 2 1).Leaves (.layout .x86_64) (.vec Outgoing) labels probes ∧
      line ∈ printResults probes ∧ line.ttl = 1 ∧ .result 2 none ∈ line.pieces ∧
      (loopback 1 2 1).Sent .x86_64 st.sending (completions labels) 0 1 := by
  obtain ⟨k, o, ho, ⟨w, hreach, _⟩, _⟩ := loopback_orders 7 9
  have h := hreach.leaves
  have hw := hreach.processes
  obtain ⟨st, hstart, _⟩ := hreach
  have hsizes : sizes (.opening true) .x86_64 (loopback 1 2 1).method
      (loopback 1 2 1).initialProbes = .ok ⟨5, 4, 148⟩ := rfl
  obtain ⟨st', hsetup⟩ := (Environment.opens_opening true).setup (.vec Outgoing)
    (loopback 1 2 1).timeout hsizes
  obtain rfl := hstart.unique ⟨_, hsetup⟩
  obtain ⟨probe, hp, _, hresult⟩ := hw.specified_of_lt (i := 0) (by decide)
  have hr : probe.result = some ⟨some (.v4 .localhost), 2, .destination⟩ :=
    hresult.trans (resultOf_loopback ho [])
  have hcount : 0 < (loopback 1 2 1).count.toNat := by decide
  have ht : probe.ttl = 1 := UInt8.toNat_inj.mp (hw.laid.ttl hcount hp)
  obtain ⟨rest, hprobes⟩ := List.head?_eq_some_iff.mp (List.head?_eq_getElem?.trans hp)
  have hslices : hopsOf w.run.probes =
      (List.range 2).map (hopSlice (loopback 1 2 1).count w.run.probes) :=
    hopsOf_slices hw.laid hcount
  have hfirst : hopSlice (loopback 1 2 1).count w.run.probes 0 = [probe] := by
    rw [hprobes]
    rfl
  rw [List.range_succ_eq_map, List.map_cons, hfirst] at hslices
  have hline : printHop [probe] ∈ printResults w.run.probes := printHop_first hslices
  have hpiece : .result 2 none ∈ (printHop [probe]).pieces := by
    simp [printHop, printHopProbes, hr, ReplyKind.failure]
  obtain ⟨k, hk, _, hcredit⟩ :=
    (hops_attributed hcount hsetup).2.2.2 _ _ _ h _ hline
  obtain ⟨i, result, hi, _, _, _, hsent⟩ := hcredit 2 none hpiece
  have hzero : i = 0 := by
    have hk : (1 : UInt8).toNat = 1 + k := ht ▸ hk
    have hk : k = 0 := Nat.add_left_cancel hk.symm
    exact (Nat.div_one i).symm.trans (hi.trans hk)
  refine ⟨st, _, _, _, hsetup, h, hline, ht, hpiece, ?_⟩
  change Sent _ _ _ _ i probe.ttl at hsent
  rw [hzero, ht] at hsent
  exact hsent

end RunArgs

end Sends

end Ringroute
