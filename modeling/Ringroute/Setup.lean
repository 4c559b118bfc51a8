import Ringroute.Kernel

namespace Ringroute
open Library
set_option autoImplicit true

section Setup

variable {host : Host} {slab : SlabApi Outgoing} {method : Method}

@[simp] theorem length_hopRange (first last : UInt8) :
    (hopRange first last).length = last.toNat + 1 - first.toNat := by
  simp only [hopRange, List.length_map, List.length_range']

theorem length_initialProbes (first last : UInt8) (count : UInt16) :
    (initialProbes first last count).length =
      (last.toNat + 1 - first.toNat) * count.toNat := by
  simp only [initialProbes, List.length_map, List.length_flatMap, List.length_replicate,
    List.map_const', List.sum_replicate_nat, length_hopRange]

@[simp] theorem length_readersOf : (readersOf host method).length = 2 := by
  simp only [readersOf, List.length_map, List.length_zipIdx, method.queues_length]

theorem readersOf_get (h : (readersOf host method)[i]? = some reader) :
    ∃ queue, method.queues[i]? = some queue ∧
      reader = Multishot.tryNew host queue (UInt16.ofNat i) := by
  rw [readersOf, List.getElem?_map, List.getElem?_zipIdx, Option.map_map] at h
  obtain ⟨queue, hqueue, he⟩ := Option.map_eq_some_iff.mp h
  refine ⟨queue, hqueue, ?_⟩
  rw [← he]
  change Multishot.tryNew host queue (UInt16.ofNat (0 + i)) = _
  rw [Nat.zero_add]

theorem readersOf_getElem? (h : m ∈ readersOf host method) :
    (readersOf host method)[m.slot.toNat]? = some m := by
  obtain ⟨i, hi⟩ := List.mem_iff_getElem?.mp h
  have hlt : i < 2 := by
    have hlen : (readersOf host method).length = 2 := length_readersOf
    rw [← hlen]
    exact (List.getElem?_eq_some_iff.mp hi).choose
  have hslot : m.slot.toNat = i := by
    obtain ⟨queue, _, rfl⟩ := readersOf_get hi
    exact UInt16.toNat_ofNat_of_lt' (Nat.lt_trans hlt (by decide))
  rw [hslot, hi]

/-- The send buffers of a probe. -/
def outgoingOf (host : Host) (method : Method) (numbered : Probe × Nat) : Outgoing :=
  let id : ProbeId := ⟨UInt16.ofNat numbered.2⟩
  Outgoing.new host (method.probe id).1 (method.probe id).2 numbered.1.ttl id

def writesOf (pending : List (Nat × Outgoing)) : List Sqe :=
  pending.map fun (slot, outgoing) => writeEntry slot outgoing

theorem scheduleReads_eq (readers : List Multishot) (sq : SubmissionRing Sqe) :
    scheduleReads readers sq = sq.pushAll (readers.map Multishot.entry) := by
  induction readers generalizing sq with
  | nil => rfl
  | cons reader readers ih =>
    simp only [scheduleReads, List.map_cons, SubmissionRing.pushAll, Multishot.schedule]
    congr 1
    funext t
    exact ih t

/-- Scheduling the writes of a list of probes that fits in the ring: each is put in the slab under
a key below the number of values put in so far, and pushed with that key as its tag. -/
theorem scheduleWrites_eq (host : Host) (slab : SlabApi Outgoing) (method : Method)
    {sq : SubmissionRing Sqe} {sending : slab.Slab} (list : List (Probe × Nat))
    (hc : sq.Counts stale)
    (hroom : stale + sq.published.length + sq.pushed.length + list.length ≤ sq.capacity)
    (hh : slab.Holds sending pending) (hslots : slab.slots sending ≤ n) :
    ∃ sending' sq' new, scheduleWrites host slab method list sending sq = (sending', some sq') ∧
      slab.Holds sending' (pending ++ new) ∧ sq.pushAll (writesOf new) = some sq' ∧
      new.map Prod.snd = list.map (outgoingOf host method) ∧
      ∀ e ∈ new, e.1 < n + list.length := by
  induction list generalizing sq sending pending n with
  | nil =>
    refine ⟨sending, sq, [], rfl, ?_, rfl, rfl, ?_⟩
    · rw [List.append_nil]
      exact hh
    · exact fun e he => absurd he List.not_mem_nil
  | cons head rest ih =>
    obtain ⟨probe, index⟩ := head
    simp only [List.length_cons] at hroom ⊢
    let outgoing := outgoingOf host method (probe, index)
    let slot := (slab.insert sending outgoing).1
    obtain ⟨t, ht⟩ := Option.isSome_iff_exists.mp
      ((hc.push_isSome_iff (writeEntry slot outgoing)).mpr (by omega))
    have hone : scheduleWrite host slab sending method ⟨UInt16.ofNat index⟩ probe.ttl sq =
        ((slab.insert sending outgoing).2, some t) := by
      simp only [scheduleWrite]
      split
      · next t' ht' => exact congrArg (Prod.mk _) (ht'.symm.trans ht)
      · next hnone => cases hnone.symm.trans ht
    have he := SubmissionRing.push_eq_some ht
    have hcap : t.capacity = sq.capacity := by rw [he]
    have hpub : t.published = sq.published := by rw [he]
    have hpush : t.pushed = sq.pushed ++ [writeEntry slot outgoing] := by rw [he]
    have hgrow := Nat.le_trans (slab.slots_insert sending outgoing) (Nat.succ_le_succ hslots)
    have hkey := Nat.le_trans (slab.insert_le sending outgoing) hslots
    obtain ⟨sending', sq', new, hrun, hholds, hall, hsnd, hlt⟩ :=
      ih (hc.push ht) (by
        rw [hcap, hpub, hpush, List.length_append, List.length_singleton]
        omega) (hh.insert outgoing) hgrow
    refine ⟨sending', sq', (slot, outgoing) :: new, ?_, ?_, ?_, ?_, ?_⟩
    · simp only [scheduleWrites, hone, hrun]
    · rw [List.append_assoc] at hholds
      exact hholds
    · simp only [writesOf, List.map_cons, SubmissionRing.pushAll, ht, Option.bind_some]
      exact hall
    · simp only [List.map_cons, hsnd]
      rfl
    · intro e hmem
      rcases List.mem_cons.mp hmem with rfl | hmem
      · change slot < _
        omega
      · have := hlt e hmem
        omega

/-- The state in which the loop is entered: every request is published, and the slab holds the
buffers of every write under its tag. -/
structure Ready (host : Host) (slab : SlabApi Outgoing) (method : Method) (first last : UInt8)
    (timeout : Duration) (count : UInt16) (st : RunState slab) (pending : List (Nat × Outgoing)) :
    Prop where
  probes : st.probes = initialProbes first last count
  length_lt : st.probes.length < 2 ^ 16
  counts : st.sq.Counts 0
  capacity : st.sq.capacity = nextPowerOfTwo (ringSize method st.probes)
  pushed : st.sq.pushed = []
  published : st.sq.published =
    (readersOf host method).map Multishot.entry ++ writesOf pending ++ [timeoutEntry timeout]
  holds : slab.Holds st.sending pending
  keys_lt : ∀ e ∈ pending, e.1 < 2 ^ 16
  outgoing : pending.map Prod.snd = st.probes.zipIdx.map (outgoingOf host method)

theorem Ready.length_pending
    (h : Ready host slab method first last timeout count st pending) :
    pending.length = st.probes.length := by
  have hlen := congrArg List.length h.outgoing
  rwa [List.length_map, List.length_map, List.length_zipIdx] at hlen

theorem Ready.length_published
    (h : Ready host slab method first last timeout count st pending) :
    st.sq.published.length = ringSize method st.probes := by
  rw [h.published]
  simp only [List.length_append, List.length_map, length_readersOf, writesOf, h.length_pending,
    List.length_singleton, ringSize, method.queues_length]

theorem Ready.outstanding
    (h : Ready host slab method first last timeout count st pending) :
    (World.start st).outstanding =
      (readersOf host method).map Multishot.entry ++ writesOf pending ++
        [timeoutEntry timeout] := by
  change st.sq.published ++ st.sq.pushed ++ [] = _
  rw [h.pushed, List.append_nil, List.append_nil, h.published]

theorem Ready.mem_outstanding
    (h : Ready host slab method first last timeout count st pending)
    (he : entry ∈ (World.start st).outstanding) :
    (∃ m ∈ readersOf host method, entry = m.entry) ∨
    (∃ i slot : Nat, ∃ o, pending[i]? = some (slot, o) ∧ entry = writeEntry slot o) ∨
    entry = timeoutEntry timeout := by
  rw [h.outstanding] at he
  rcases List.mem_append.mp he with he | he
  · rcases List.mem_append.mp he with he | he
    · obtain ⟨m, hm, rfl⟩ := List.mem_map.mp he
      exact .inl ⟨m, hm, rfl⟩
    · obtain ⟨⟨slot, o⟩, hmem, rfl⟩ := List.mem_map.mp he
      obtain ⟨i, hi⟩ := List.mem_iff_getElem?.mp hmem
      exact .inr (.inl ⟨i, slot, o, hi, rfl⟩)
  · exact .inr (.inr (List.mem_singleton.mp he))

theorem Ready.numbered
    (h : Ready host slab method first last timeout count st pending)
    (hi : pending[i]? = some (slot, o)) :
    ∃ probe, st.probes[i]? = some probe ∧ o = outgoingOf host method (probe, i) ∧
      o.probe.index = i := by
  have hget := congrArg (·[i]?) h.outgoing
  simp only [List.getElem?_map, List.getElem?_zipIdx, hi, Option.map_some, Nat.zero_add] at hget
  obtain ⟨⟨probe, j⟩, hnumbered, houtgoing⟩ := Option.map_eq_some_iff.mp hget.symm
  obtain ⟨_, hp, he⟩ := Option.map_eq_some_iff.mp hnumbered
  cases he
  have hlt : i < 2 ^ 16 := Nat.lt_trans (List.getElem?_eq_some_iff.mp hp).choose h.length_lt
  refine ⟨probe, hp, houtgoing.symm, ?_⟩
  rw [← houtgoing]
  exact UInt16.toNat_ofNat_of_lt' hlt

theorem nextPowerOfTwo_ringSize_lt (h : probes.length < 2 ^ 16) :
    nextPowerOfTwo (ringSize method probes) < 2 ^ 32 := by
  have hsize : ringSize method probes ≤ 2 ^ 17 := by
    simp only [ringSize, method.queues_length]
    omega
  exact Nat.lt_of_le_of_lt (nextPowerOfTwo_le hsize) (by decide)

theorem pushes_eq (host : Host) (slab : SlabApi Outgoing) (method : Method) (timeout : Duration)
    {probes : List Probe} (h : probes.length < 2 ^ 16) :
    ∃ sq₁ sending sq₂ sq₃ pending,
      scheduleReads (readersOf host method) (.new (ringSize method probes)) = some sq₁ ∧
      scheduleWrites host slab method probes.zipIdx slab.new sq₁ = (sending, some sq₂) ∧
      sq₂.push (timeoutEntry timeout) = some sq₃ ∧
      sq₃.Counts 0 ∧ sq₃.capacity = nextPowerOfTwo (ringSize method probes) ∧
      sq₃.published ++ sq₃.pushed = (readersOf host method).map Multishot.entry ++
        writesOf pending ++ [timeoutEntry timeout] ∧
      slab.Holds sending pending ∧ (∀ e ∈ pending, e.1 < probes.length) ∧
      pending.map Prod.snd = probes.zipIdx.map (outgoingOf host method) := by
  let size := ringSize method probes
  have hsize : size = probes.length + 3 := by
    simp only [size, ringSize, method.queues_length]
    omega
  have hcap := le_nextPowerOfTwo size
  have hc₀ : (SubmissionRing.new size : SubmissionRing Sqe).Counts 0 :=
    SubmissionRing.new_counts (nextPowerOfTwo_ringSize_lt h)
  obtain ⟨sq₁, hreads⟩ := hc₀.pushAll_isSome ((readersOf host method).map Multishot.entry) (by
    simp only [SubmissionRing.new, List.length_nil, List.length_map, length_readersOf]
    omega)
  have hp₁ := SubmissionRing.pushAll_pushed hreads
  have hcap₁ : sq₁.capacity = nextPowerOfTwo size := hp₁.capacity_eq
  have hpub₁ : sq₁.published = [] := hp₁.published_eq
  have hpush₁ : sq₁.pushed = (readersOf host method).map Multishot.entry := hp₁.pushed_eq
  obtain ⟨sending, sq₂, pending, hwrites, hholds, hall, hsnd, hlt⟩ :=
    scheduleWrites_eq host slab method probes.zipIdx
      (hc₀.pushAll hreads) (by
        rw [hcap₁, hpub₁, hpush₁]
        simp only [List.length_nil, List.length_map, length_readersOf, List.length_zipIdx]
        omega) SlabApi.holds_new (Nat.le_of_eq slab.slots_new)
  have hp₂ := SubmissionRing.pushAll_pushed hall
  have hlen : pending.length = probes.length := by
    have := congrArg List.length hsnd
    simpa only [List.length_map, List.length_zipIdx] using this
  have hcap₂ : sq₂.capacity = nextPowerOfTwo size := hp₂.capacity_eq.trans hcap₁
  have hpub₂ : sq₂.published = [] := hp₂.published_eq.trans hpub₁
  have hc₂ := (hc₀.pushAll hreads).pushAll hall
  obtain ⟨sq₃, htimeout⟩ := Option.isSome_iff_exists.mp
    ((hc₂.push_isSome_iff (timeoutEntry timeout)).mpr (by
      rw [hcap₂, hpub₂, hp₂.pushed_eq, hpush₁]
      simp only [List.length_nil, List.length_append, List.length_map, length_readersOf, writesOf,
        hlen]
      omega))
  have hp₃ := SubmissionRing.push_eq_some htimeout
  refine ⟨sq₁, sending, sq₂, sq₃, pending, scheduleReads_eq .. ▸ hreads, hwrites, htimeout,
    hc₂.push htimeout, ?_, ?_, hholds, ?_, hsnd⟩
  · rw [hp₃]
    exact hcap₂
  · rw [hp₃]
    change sq₂.published ++ (sq₂.pushed ++ [timeoutEntry timeout]) = _
    rw [hpub₂, hp₂.pushed_eq, hpush₁, List.nil_append]
  · intro e he
    have hk := hlt e he
    rwa [List.length_zipIdx, Nat.zero_add] at hk

/-- The requests of the set-up all find room in the ring that is sized for them. -/
theorem scheduleAll_eq (host : Host) (slab : SlabApi Outgoing) (method : Method)
    (timeout : Duration) (h : (initialProbes first last count).length < 2 ^ 16)
    (hring : ringEntries.toNat = ringSize method (initialProbes first last count)) :
    ∃ st pending, scheduleAll host slab method timeout (initialProbes first last count)
        ringEntries = .ok st ∧
      Ready host slab method first last timeout count st pending := by
  obtain ⟨sq₁, sending, sq₂, sq₃, pending, hreads, hwrites, htimeout, hcounts, hcap, hpublished,
    hholds, hlt, hsnd⟩ := pushes_eq host slab method timeout h
  refine ⟨⟨sq₃.sync, sending, initialProbes first last count⟩, pending, ?_, ?_⟩
  · simp only [scheduleAll, hring, hreads, hwrites, htimeout]
  · exact ⟨rfl, h, hcounts.sync, hcap, rfl, hpublished, hholds,
      fun e he => Nat.lt_trans (hlt e he) h, hsnd⟩

end Setup

section Sizing

variable {env : Environment} {host : Host} {slab : SlabApi Outgoing} {method : Method}

/-- The system opens everything it is asked for. -/
structure Environment.Opens (env : Environment) : Prop where
  features : env.features = .ok ()
  sockets : env.sockets = .ok ()
  ring : env.ring = .ok ()
  bufRing : env.bufRing = .ok ()
  readers : env.readers = .ok ()

/-- A system that opens everything it is asked for. -/
def Environment.opening (overflowChecks : Bool) : Environment :=
  ⟨overflowChecks, .ok (), .ok (), .ok (), .ok (), .ok ()⟩

theorem Environment.opens_opening (overflowChecks : Bool) :
    (Environment.opening overflowChecks).Opens := ⟨rfl, rfl, rfl, rfl, rfl⟩

theorem opened_eq_ok (h : opened answer = .ok u) : answer = .ok () := by
  cases answer with
  | ok => rfl
  | error => cases h

theorem operator_eq_ok_iff :
    operator overflowChecks fits result = .ok a ↔
      (overflowChecks = true → fits = true) ∧ result = a := by
  rw [operator]
  cases overflowChecks <;> cases fits <;> simp

theorem u32TryFrom_eq_ok (h : u32TryFrom n = .ok m) : m.toNat = n := by
  rw [u32TryFrom] at h
  split at h
  · rename_i hlt
    cases h
    exact UInt32.toNat_ofNat_of_lt' hlt
  · cases h

theorem u16TryFrom_eq_ok (h : u16TryFrom n = .ok m) : m.toNat = n := by
  rw [u16TryFrom] at h
  split at h
  · rename_i hlt
    cases h
    exact UInt16.toNat_ofNat_of_lt' hlt
  · cases h

/-- The sizes are asked for as they are computed, and where the build does not check its operators
they need not be what was meant, except for the ring's. -/
theorem sizes_eq_ok (h : sizes env host method probes = .ok found) :
    found.ringEntries.toNat = ringSize method probes ∧ probes.length < 2 ^ 16 ∧
      env.ring = .ok () ∧ env.bufRing = .ok () ∧
      bufferLen env.overflowChecks host method = .ok found.bufferLen := by
  obtain ⟨ringEntries, hring, h⟩ := except_bind_eq_ok h
  obtain ⟨_, hopen, h⟩ := except_bind_eq_ok h
  obtain ⟨length, hlength, h⟩ := except_bind_eq_ok h
  obtain ⟨buffers, _, h⟩ := except_bind_eq_ok h
  obtain ⟨len, hlen, h⟩ := except_bind_eq_ok h
  obtain ⟨_, hbuf, h⟩ := except_bind_eq_ok h
  cases h
  refine ⟨u32TryFrom_eq_ok hring, ?_, opened_eq_ok hopen, opened_eq_ok hbuf, hlen⟩
  rw [← u16TryFrom_eq_ok hlength]
  exact length.toNat_lt

theorem setup_eq_ok (h : setup host slab method env first last timeout count = .ok st) :
    env.Opens ∧ ∃ found, sizes env host method (initialProbes first last count) = .ok found ∧
      scheduleAll host slab method timeout (initialProbes first last count) found.ringEntries =
        .ok st := by
  obtain ⟨_, hfeatures, h⟩ := except_bind_eq_ok h
  obtain ⟨_, hsockets, h⟩ := except_bind_eq_ok h
  obtain ⟨found, hsizes, h⟩ := except_bind_eq_ok h
  obtain ⟨_, hreaders, h⟩ := except_bind_eq_ok h
  obtain ⟨_, _, hring, hbuf, _⟩ := sizes_eq_ok hsizes
  exact ⟨⟨opened_eq_ok hfeatures, opened_eq_ok hsockets, hring, hbuf, opened_eq_ok hreaders⟩,
    found, hsizes, h⟩

theorem opened_ne_pushError (answer : Except (Option Int) Unit) :
    opened answer ≠ .error .pushError := by
  cases answer <;> exact nofun

theorem operator_ne_pushError : operator overflowChecks fits result ≠ .error .pushError := by
  rw [operator]
  split <;> exact nofun

theorem sizes_ne_pushError : sizes env host method probes ≠ .error .pushError := by
  refine except_bind_ne_error ?_ fun _ _ => except_bind_ne_error (opened_ne_pushError _) fun _ _ =>
    except_bind_ne_error ?_ fun _ _ => except_bind_ne_error operator_ne_pushError fun _ _ =>
      except_bind_ne_error operator_ne_pushError fun _ _ =>
        except_bind_ne_error (opened_ne_pushError _) fun _ _ => nofun
  · rw [u32TryFrom]
    split <;> exact nofun
  · rw [u16TryFrom]
    split <;> exact nofun

theorem setup_ne_pushError :
    setup host slab method env first last timeout count ≠ .error .pushError := by
  refine except_bind_ne_error (opened_ne_pushError _) fun _ _ =>
    except_bind_ne_error (opened_ne_pushError _) fun _ _ =>
      except_bind_ne_error sizes_ne_pushError fun found hsizes =>
        except_bind_ne_error (opened_ne_pushError _) fun _ _ => ?_
  obtain ⟨hring, hlt, _⟩ := sizes_eq_ok hsizes
  obtain ⟨st, _, hall, _⟩ := scheduleAll_eq host slab method timeout hlt hring
  rw [hall]
  exact nofun

theorem setup_ready (h : setup host slab method env first last timeout count = .ok st) :
    ∃ pending, Ready host slab method first last timeout count st pending := by
  obtain ⟨_, found, hsizes, hall⟩ := setup_eq_ok h
  obtain ⟨hring, hlt, _⟩ := sizes_eq_ok hsizes
  obtain ⟨st', pending, hok, hready⟩ := scheduleAll_eq host slab method timeout hlt hring
  rw [hall] at hok
  cases hok
  exact ⟨pending, hready⟩

/-- Set-up comes to the same state wherever it goes through. -/
theorem setup_unique (h : setup host slab method env first last timeout count = .ok st)
    (h' : setup host slab method env' first last timeout count = .ok st') : st = st' := by
  obtain ⟨_, found, hsizes, hall⟩ := setup_eq_ok h
  obtain ⟨_, found', hsizes', hall'⟩ := setup_eq_ok h'
  have hring : found.ringEntries = found'.ringEntries :=
    UInt32.toNat_inj.mp ((sizes_eq_ok hsizes).1.trans (sizes_eq_ok hsizes').1.symm)
  rw [hring] at hall
  exact Except.ok.inj (hall.symm.trans hall')

theorem Environment.Opens.setup (h : env.Opens) (slab : SlabApi Outgoing) (timeout : Duration)
    (hsizes : sizes env host method (initialProbes first last count) = .ok found) :
    ∃ st, setup host slab method env first last timeout count = .ok st := by
  obtain ⟨hring, hlt, _⟩ := sizes_eq_ok hsizes
  obtain ⟨st, _, hall, _⟩ := scheduleAll_eq host slab method timeout hlt hring
  refine ⟨st, ?_⟩
  simp only [Ringroute.setup, h.features, h.sockets, h.readers, hsizes, opened, Except.mapError,
    ok_bind, hall]

theorem Environment.Opens.sizes (h : env.Opens) (hlt : probes.length < 2 ^ 16)
    (hdouble : env.overflowChecks = true → 2 * probes.length < 2 ^ 16)
    (hlen : bufferLen env.overflowChecks host method = .ok len) :
    Ringroute.sizes env host method probes =
      .ok ⟨UInt32.ofNat (ringSize method probes), 2 * UInt16.ofNat probes.length, len⟩ := by
  have hring : u32TryFrom (ringSize method probes) = .ok (UInt32.ofNat (ringSize method probes)) :=
    if_pos (by
      simp only [ringSize, method.queues_length]
      omega)
  have hprobes : u16TryFrom probes.length = .ok (UInt16.ofNat probes.length) := if_pos hlt
  have hnat : (UInt16.ofNat probes.length).toNat = probes.length :=
    UInt16.toNat_ofNat_of_lt' hlt
  have hmul : u16Mul env.overflowChecks 2 (UInt16.ofNat probes.length) =
      .ok (2 * UInt16.ofNat probes.length) := by
    refine operator_eq_ok_iff.mpr ⟨?_, rfl⟩
    intro hchecks
    rw [hnat]
    exact decide_eq_true (hdouble hchecks)
  simp only [Ringroute.sizes, hring, hprobes, hmul, hlen, h.ring, h.bufRing, opened,
    Except.mapError, ok_bind]
  rfl

end Sizing

end Ringroute
