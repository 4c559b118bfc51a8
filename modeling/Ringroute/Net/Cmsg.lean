import Ringroute.Net

namespace Ringroute
open Library
set_option autoImplicit true

namespace Host

theorem usizeMax_eq (host : Host) : host.usizeMax = 2 * host.isizeMax + 1 := by
  rcases host.word_eq with h | h <;> rw [usizeMax, isizeMax, h] <;> rfl

theorem lt_isizeMax (host : Host) : 2 ^ 30 < host.isizeMax := by
  rcases host.word_eq with h | h <;> rw [isizeMax, h] <;> decide

theorem usize_ok (host : Host) (h : n ≤ host.usizeMax) : host.usize n = .ok n := if_pos h

theorem le_align (host : Host) (n : Nat) : n ≤ host.align n := by
  rcases host.word_eq with h | h <;> rw [align, h] <;> omega

theorem align_lt (host : Host) (n : Nat) : host.align n < n + host.word := by
  rcases host.word_eq with h | h <;> rw [align, h] <;> omega

theorem word_le (host : Host) : host.word ≤ 8 := by
  rcases host.word_eq with h | h <;> omega

end Host

theorem cmsgAlign_eq (host : Host) (h : n + host.word ≤ host.usizeMax) :
    cmsgAlign host n = .ok (host.align n) := by
  have hround (hx : n + host.word - 1 ≤ host.usizeMax) :
      (n + host.word - 1) &&& host.complement (host.word - 1) = host.align n := by
    rcases host.word_eq with hw | hw
    · rw [Host.usizeMax, hw] at hx
      rw [Host.complement, Host.usizeMax, Host.align, hw]
      exact and_two_pow_sub (k := 2) (n := 32) (by omega) (by omega)
    · rw [Host.usizeMax, hw] at hx
      rw [Host.complement, Host.usizeMax, Host.align, hw]
      exact and_two_pow_sub (k := 3) (n := 64) (by omega) (by omega)
  simp only [cmsgAlign, host.usize_ok h]
  exact congrArg Except.ok (hround (by omega))

@[simp] theorem cmsgHeaderLen_eq (host : Host) : cmsgHeaderLen host = host.sizeOfCmsghdr := by
  have h : cmsgAlign host host.sizeOfCmsghdr = .ok (host.align host.sizeOfCmsghdr) := by
    apply cmsgAlign_eq
    rcases host.word_eq with h | h <;> rw [Host.sizeOfCmsghdr, Host.usizeMax, h] <;> decide
  rw [cmsgHeaderLen, h]
  change host.align host.sizeOfCmsghdr = _
  rcases host.word_eq with h | h <;> rw [Host.align, Host.sizeOfCmsghdr, h]

theorem sizeOfCmsghdr_eq (host : Host) : host.sizeOfCmsghdr = 12 ∨ host.sizeOfCmsghdr = 16 := by
  rcases host.word_eq with h | h <;> rw [Host.sizeOfCmsghdr, h]
  · exact .inl rfl
  · exact .inr rfl

section Grammar

variable (host : Host) (control : Bytes)

/-- A whole control message with the given header starts at the offset. -/
structure CmsgAt (offset : Nat) (header : Cmsghdr) : Prop where
  whole : offset + host.sizeOfCmsghdr ≤ control.length
  header_eq : header = Cmsghdr.read host (control.field offset host.sizeOfCmsghdr)
  min_len : cmsgHeaderLen host ≤ header.cmsgLen
  fits : offset + header.cmsgLen ≤ control.length

/-- The listed control messages, none of which is an extended error, lead from one offset to
another. -/
inductive CmsgChain : Nat → List Cmsghdr → Nat → Prop where
  | nil : CmsgChain offset [] offset
  | cons (h : CmsgAt host control offset header) (other : header.isRecverr = false)
      (rest : CmsgChain (offset + host.align header.cmsgLen) headers stop) :
      CmsgChain offset (header :: headers) stop

/-- What a record says, by its origin. -/
inductive IcmpRecord : SockExtendedErr → IcmpError → Prop where
  | icmp : IcmpRecord ⟨soEeOriginIcmp, icmpType, code, info⟩ (.v4 icmpType code info)
  | icmp6 : IcmpRecord ⟨soEeOriginIcmp6, icmpType, code, info⟩ (.v6 icmpType code info)

/-- The control message at the offset is an extended error from ICMP or ICMPv6: a record, then the
address of whoever sent it. -/
structure RecverrAt (offset : Nat) (extended : ExtendedError) : Prop where
  message : ∃ header, CmsgAt host control offset header ∧ header.isRecverr = true ∧
    cmsgHeaderLen host + sizeOfSockExtendedErr ≤ header.cmsgLen ∧
    IcmpRecord (.read host (control.field (offset + cmsgHeaderLen host) sizeOfSockExtendedErr))
      extended.error ∧
    extended.sourceBytes =
      control.field (offset + cmsgHeaderLen host + sizeOfSockExtendedErr)
        (header.cmsgLen - cmsgHeaderLen host - sizeOfSockExtendedErr)

/-- The grammar of the control data of an error queue read. -/
def Accepts (extended : ExtendedError) : Prop :=
  ∃ headers offset, CmsgChain host control 0 headers offset ∧ RecverrAt host control offset extended

end Grammar

theorem icmpError_iff {record : SockExtendedErr} :
    record.icmpError = some error ↔ IcmpRecord record error := by
  obtain ⟨origin, icmpType, code, info⟩ := record
  constructor
  · intro h
    simp only [SockExtendedErr.icmpError] at h
    split at h
    · rename_i ho
      cases h
      cases ho
      exact .icmp
    · split at h
      · rename_i ho
        cases h
        cases ho
        exact .icmp6
      · cases h
  · intro h
    cases h <;> rfl

section Walk

variable {host : Host} {control : Bytes}

theorem readUnaligned_ok {start width : Nat} (h : start + width ≤ control.length) :
    readUnaligned control start (start + width) = .ok (control.field start width) := by
  rw [readUnaligned, Bytes.slice?_eq_some (Nat.le_add_right _ _) h, List.drop_take,
    Nat.add_sub_cancel_left]
  rfl

theorem CmsgAt.sizeOf_le (h : CmsgAt host control offset header) :
    host.sizeOfCmsghdr ≤ header.cmsgLen := by
  rw [← cmsgHeaderLen_eq]
  exact h.min_len

theorem CmsgAt.header_unique (h : CmsgAt host control offset header)
    (h' : CmsgAt host control offset header') : header = header' :=
  h.header_eq.trans h'.header_eq.symm

theorem Host.usize_le (h : n ≤ 2 * host.isizeMax + 1) : host.usize n = .ok n :=
  host.usize_ok (by rw [host.usizeMax_eq]; exact h)

theorem RecverrAt.iff_of_cmsgAt (h : CmsgAt host control offset header)
    (hr : header.isRecverr = true) :
    RecverrAt host control offset extended ↔
      host.sizeOfCmsghdr + sizeOfSockExtendedErr ≤ header.cmsgLen ∧
      IcmpRecord (.read host (control.field (offset + host.sizeOfCmsghdr) sizeOfSockExtendedErr))
        extended.error ∧
      extended.sourceBytes =
        control.field (offset + host.sizeOfCmsghdr + sizeOfSockExtendedErr)
          (header.cmsgLen - host.sizeOfCmsghdr - sizeOfSockExtendedErr) := by
  constructor
  · rintro ⟨header', h', _, hfound⟩
    cases h.header_unique h'
    simpa only [cmsgHeaderLen_eq] using hfound
  · intro hfound
    refine ⟨header, h, hr, ?_⟩
    simpa only [cmsgHeaderLen_eq] using hfound

theorem readRecverr_spec (hlen : control.length ≤ host.isizeMax)
    (h : CmsgAt host control offset header) (hr : header.isRecverr = true) :
    ∃ found, readRecverr host control offset (offset + header.cmsgLen) = .ok found ∧
      ∀ extended, found = some extended ↔ RecverrAt host control offset extended := by
  have hfits := h.fits
  have hmin := h.sizeOf_le
  have hbig := host.lt_isizeMax
  have hhdr := sizeOfCmsghdr_eq host
  have hdata : host.usize (offset + host.sizeOfCmsghdr) = .ok (offset + host.sizeOfCmsghdr) :=
    Host.usize_le (by omega)
  have hend : host.usize (offset + host.sizeOfCmsghdr + sizeOfSockExtendedErr) =
      .ok (offset + host.sizeOfCmsghdr + sizeOfSockExtendedErr) :=
    Host.usize_le (by simp only [sizeOfSockExtendedErr]; omega)
  simp only [readRecverr, cmsgHeaderLen_eq, hdata, ok_bind, hend]
  by_cases hlong : host.sizeOfCmsghdr + sizeOfSockExtendedErr ≤ header.cmsgLen
  · have hinside :
        offset + host.sizeOfCmsghdr + sizeOfSockExtendedErr ≤ offset + header.cmsgLen := by
      omega
    have hsource := @readUnaligned_ok control
      (offset + host.sizeOfCmsghdr + sizeOfSockExtendedErr)
      (header.cmsgLen - host.sizeOfCmsghdr - sizeOfSockExtendedErr) (by omega)
    have hstop : offset + host.sizeOfCmsghdr + sizeOfSockExtendedErr +
        (header.cmsgLen - host.sizeOfCmsghdr - sizeOfSockExtendedErr) =
        offset + header.cmsgLen := by
      omega
    rw [hstop] at hsource
    rw [if_neg (Nat.not_lt.mpr hinside), readUnaligned_ok (by omega), ok_bind]
    cases hrecord : (SockExtendedErr.read host
        (control.field (offset + host.sizeOfCmsghdr) sizeOfSockExtendedErr)).icmpError with
    | none =>
      refine ⟨none, rfl, ?_⟩
      intro extended
      rw [RecverrAt.iff_of_cmsgAt h hr, ← icmpError_iff, hrecord]
      exact iff_of_false (fun hc => nomatch hc) fun hc => nomatch hc.2.1
    | some error =>
      refine ⟨some ⟨error, _⟩, by rw [hsource]; rfl, ?_⟩
      intro extended
      rw [RecverrAt.iff_of_cmsgAt h hr, ← icmpError_iff, hrecord]
      constructor
      · intro he
        cases he
        exact ⟨hlong, rfl, rfl⟩
      · intro ⟨_, herror, hbytes⟩
        obtain ⟨error', bytes⟩ := extended
        cases herror
        cases hbytes
        rfl
  · refine ⟨none, by rw [if_pos (by omega)]; rfl, ?_⟩
    intro extended
    rw [RecverrAt.iff_of_cmsgAt h hr]
    exact iff_of_false (fun hc => nomatch hc) fun hc => hlong hc.1

theorem cmsgTurn_keep (hwhole : offset + host.sizeOfCmsghdr ≤ control.length)
    (hheader : Cmsghdr.read host (control.field offset host.sizeOfCmsghdr) = header)
    (hadd : host.checkedAdd offset header.cmsgLen = some cmsgEnd)
    (hkeep : ¬ (header.cmsgLen < cmsgHeaderLen host ∨ cmsgEnd > control.length)) :
    cmsgTurn host control offset =
      if header.isRecverr then do
        return .done (← readRecverr host control offset cmsgEnd)
      else do
        return .next (← host.usize (offset + (← cmsgAlign host header.cmsgLen))) := by
  subst hheader
  rw [cmsgTurn, readUnaligned_ok hwhole, ok_bind]
  simp only [hadd, if_neg hkeep]

theorem cmsgTurn_stop (hwhole : offset + host.sizeOfCmsghdr ≤ control.length)
    (hheader : Cmsghdr.read host (control.field offset host.sizeOfCmsghdr) = header)
    (hstop : ∀ cmsgEnd, host.checkedAdd offset header.cmsgLen = some cmsgEnd →
      header.cmsgLen < cmsgHeaderLen host ∨ cmsgEnd > control.length) :
    cmsgTurn host control offset = .ok (.done none) := by
  subst hheader
  rw [cmsgTurn, readUnaligned_ok hwhole, ok_bind]
  cases hadd : host.checkedAdd offset
      (Cmsghdr.read host (control.field offset host.sizeOfCmsghdr)).cmsgLen with
  | none =>
    simp only [hadd]
    rfl
  | some cmsgEnd =>
    simp only [hadd, if_pos (hstop cmsgEnd hadd)]
    rfl

theorem cmsgTurn_spec (hlen : control.length ≤ host.isizeMax)
    (hwhole : offset + host.sizeOfCmsghdr ≤ control.length) :
    ((∀ header, ¬ CmsgAt host control offset header) ∧
      cmsgTurn host control offset = .ok (.done none)) ∨
    ∃ header, CmsgAt host control offset header ∧
      ((header.isRecverr = false ∧
        cmsgTurn host control offset = .ok (.next (offset + host.align header.cmsgLen))) ∨
      (header.isRecverr = true ∧ ∃ found, cmsgTurn host control offset = .ok (.done found) ∧
        ∀ extended, found = some extended ↔ RecverrAt host control offset extended)) := by
  have hbig := host.lt_isizeMax
  have hmax := host.usizeMax_eq
  have hword := host.word_le
  obtain ⟨header, hheader⟩ : ∃ header,
      Cmsghdr.read host (control.field offset host.sizeOfCmsghdr) = header := ⟨_, rfl⟩
  by_cases hwf : host.sizeOfCmsghdr ≤ header.cmsgLen ∧ offset + header.cmsgLen ≤ control.length
  · have hat : CmsgAt host control offset header :=
      ⟨hwhole, hheader.symm, by rw [cmsgHeaderLen_eq]; exact hwf.1, hwf.2⟩
    have hadd : host.checkedAdd offset header.cmsgLen = some (offset + header.cmsgLen) :=
      if_pos (by omega)
    have hskip : ¬ (header.cmsgLen < cmsgHeaderLen host ∨
        offset + header.cmsgLen > control.length) := by
      rw [cmsgHeaderLen_eq]
      omega
    rw [cmsgTurn_keep hwhole hheader hadd hskip]
    refine .inr ⟨header, hat, ?_⟩
    cases hr : header.isRecverr with
    | false =>
      have halign := host.align_lt header.cmsgLen
      rw [cmsgAlign_eq host (by omega), ok_bind, Host.usize_ok host (by omega), ok_bind]
      exact .inl ⟨rfl, rfl⟩
    | true =>
      obtain ⟨found, hfound, hiff⟩ := readRecverr_spec hlen hat hr
      rw [hfound, ok_bind]
      exact .inr ⟨rfl, found, rfl, hiff⟩
  · have hnone (header' : Cmsghdr) : ¬ CmsgAt host control offset header' := by
      intro hat
      have he : header' = header := hat.header_eq.trans hheader
      rw [← he] at hwf
      exact hwf ⟨hat.sizeOf_le, hat.fits⟩
    refine .inl ⟨hnone, cmsgTurn_stop hwhole hheader ?_⟩
    intro cmsgEnd hadd
    have hend : offset + header.cmsgLen = cmsgEnd := by
      simp only [Host.checkedAdd] at hadd
      split at hadd
      · exact Option.some.inj hadd
      · cases hadd
    rw [cmsgHeaderLen_eq]
    omega

theorem CmsgChain.not_recverrAt (h : CmsgChain host control offset headers stop)
    (hr : RecverrAt host control stop extended)
    (hnone : ∀ header, ¬ CmsgAt host control offset header) : False := by
  cases h with
  | nil =>
    obtain ⟨header, hat, _⟩ := hr
    exact hnone header hat
  | cons hat => exact hnone _ hat

theorem CmsgAt.chain_next (hat : CmsgAt host control offset header)
    (hother : header.isRecverr = false) :
    (∃ headers stop, CmsgChain host control offset headers stop ∧
      RecverrAt host control stop extended) ↔
    ∃ headers stop, CmsgChain host control (offset + host.align header.cmsgLen) headers stop ∧
      RecverrAt host control stop extended := by
  constructor
  · rintro ⟨headers, stop, hchain, hr⟩
    cases hchain with
    | nil =>
      obtain ⟨header', hat', hr', _⟩ := hr
      cases hat.header_unique hat'
      rw [hother] at hr'
      cases hr'
    | @cons _ header' headers' _ hat' _ hrest =>
      cases hat.header_unique hat'
      exact ⟨headers', stop, hrest, hr⟩
  · rintro ⟨headers, stop, hchain, hr⟩
    exact ⟨header :: headers, stop, .cons hat hother hchain, hr⟩

theorem CmsgAt.chain_here (hat : CmsgAt host control offset header)
    (hr : header.isRecverr = true) :
    (∃ headers stop, CmsgChain host control offset headers stop ∧
      RecverrAt host control stop extended) ↔ RecverrAt host control offset extended := by
  constructor
  · rintro ⟨headers, stop, hchain, h⟩
    cases hchain with
    | nil => exact h
    | cons hat' hother =>
      cases hat.header_unique hat'
      rw [hr] at hother
      cases hother
  · intro h
    exact ⟨[], offset, .nil, h⟩

/-- The walk from an offset finds what a chain from there leads to. Each turn but the last moves
on by the length of a header at least, which is what the fuel is measured in. -/
theorem cmsgWalk_spec (hlen : control.length ≤ host.isizeMax) (fuel offset : Nat)
    (hoff : offset < control.length + host.word)
    (hfuel : control.length + 1 ≤ fuel + offset / 12) :
    ∃ found, cmsgWalk host control fuel offset = .ok found ∧
      ∀ extended, found = some extended ↔ ∃ headers stop,
        CmsgChain host control offset headers stop ∧ RecverrAt host control stop extended := by
  have hbig := host.lt_isizeMax
  have hhdr := sizeOfCmsghdr_eq host
  have hword := host.word_le
  have hstop (offset : Nat) (hnone : ∀ header, ¬ CmsgAt host control offset header)
      (extended : ExtendedError) : none = some extended ↔ ∃ headers stop,
        CmsgChain host control offset headers stop ∧ RecverrAt host control stop extended := by
    refine iff_of_false (Option.some_ne_none _).symm ?_
    rintro ⟨_, _, hchain, hr⟩
    exact hchain.not_recverrAt hr hnone
  induction fuel generalizing offset with
  | zero => omega
  | succ fuel ih =>
    have hsum : host.usize (offset + host.sizeOfCmsghdr) = .ok (offset + host.sizeOfCmsghdr) :=
      Host.usize_le (by omega)
    rw [cmsgWalk, hsum, ok_bind]
    by_cases hwhole : offset + host.sizeOfCmsghdr ≤ control.length
    · rw [if_pos hwhole]
      rcases cmsgTurn_spec hlen hwhole with ⟨hnone, hturn⟩ |
        ⟨header, hat, ⟨hother, hturn⟩ | ⟨hr, found, hturn, hiff⟩⟩
      · exact ⟨none, by rw [hturn]; rfl, hstop offset hnone⟩
      · have hmin := hat.sizeOf_le
        have hfits := hat.fits
        have hle := host.le_align header.cmsgLen
        have hlt := host.align_lt header.cmsgLen
        obtain ⟨found, hwalk, hiff⟩ := ih (offset + host.align header.cmsgLen) (by omega) (by omega)
        refine ⟨found, by rw [hturn]; exact hwalk, ?_⟩
        intro extended
        rw [hiff, hat.chain_next hother]
      · refine ⟨found, by rw [hturn]; rfl, ?_⟩
        intro extended
        rw [hiff, hat.chain_here hr]
    · exact ⟨none, by rw [if_neg hwhole]; rfl, hstop offset fun _ hat => hwhole hat.whole⟩

theorem parseIpRecverr_spec (hlen : control.length ≤ host.isizeMax) :
    ∃ found, parseIpRecverr host control = .ok found ∧
      ∀ extended, found = some extended ↔ Accepts host control extended := by
  have hpos : 0 < host.word := by
    rcases host.word_eq with h | h <;> omega
  exact cmsgWalk_spec hlen (control.length + 1) 0 (by omega) (by omega)

end Walk

section Encoding

def Cmsghdr.bytes (host : Host) (header : Cmsghdr) : Bytes :=
  host.endian.bytes host.word header.cmsgLen ++
    host.endian.bytes 4 header.cmsgLevel.toUInt32.toNat ++
    host.endian.bytes 4 header.cmsgType.toUInt32.toNat

/-- A control message as the kernel lays it out, with the padding up to the next one. -/
structure Cmsg (host : Host) where
  level : Int32
  type : Int32
  data : Bytes
  padding : Bytes
  aligned : host.sizeOfCmsghdr + data.length + padding.length =
    host.align (host.sizeOfCmsghdr + data.length)

def Cmsg.header (message : Cmsg host) : Cmsghdr where
  cmsgLen := host.sizeOfCmsghdr + message.data.length
  cmsgLevel := message.level
  cmsgType := message.type

def Cmsg.bytes (message : Cmsg host) : Bytes :=
  message.header.bytes host ++ message.data ++ message.padding

def IcmpError.record : IcmpError → SockExtendedErr
  | .v4 icmpType code info => ⟨soEeOriginIcmp, icmpType, code, info⟩
  | .v6 icmpType code info => ⟨soEeOriginIcmp6, icmpType, code, info⟩

/-- An ICMP error as the kernel queues it on a socket, with the fields the walk does not read. -/
structure QueuedError where
  /-- Whether the socket is an IPv6 one. -/
  ipv6 : Bool
  error : IcmpError
  eeErrno : UInt32
  eePad : UInt8
  eeData : UInt32
  address : Bytes

def QueuedError.header (host : Host) (queued : QueuedError) : Cmsghdr where
  cmsgLen := host.sizeOfCmsghdr + (sizeOfSockExtendedErr + queued.address.length)
  cmsgLevel := if queued.ipv6 then ipprotoIpv6 else ipprotoIp
  cmsgType := if queued.ipv6 then ipv6Recverr else ipRecverr

def QueuedError.record (host : Host) (queued : QueuedError) : Bytes :=
  host.endian.bytes 4 queued.eeErrno.toNat ++
    [queued.error.record.eeOrigin, queued.error.record.eeType, queued.error.record.eeCode,
      queued.eePad] ++
    host.endian.bytes 4 queued.error.record.eeInfo.toNat ++
    host.endian.bytes 4 queued.eeData.toNat

/-- The message without padding behind it. -/
def QueuedError.bytes (host : Host) (queued : QueuedError) : Bytes :=
  (queued.header host).bytes host ++ queued.record host ++ queued.address

variable {host : Host}

@[simp] theorem Cmsghdr.length_bytes (header : Cmsghdr) :
    (header.bytes host).length = host.sizeOfCmsghdr := by
  simp only [Cmsghdr.bytes, List.length_append, Endian.length_bytes, Host.sizeOfCmsghdr]

theorem Cmsghdr.read_bytes {header : Cmsghdr} (h : header.cmsgLen ≤ host.isizeMax) :
    Cmsghdr.read host (header.bytes host) = header := by
  obtain ⟨len, level, type⟩ := header
  have hlen : len < 256 ^ host.word := by
    have hmax := host.usizeMax_eq
    rw [Host.usizeMax] at hmax
    change len ≤ _ at h
    omega
  simp only [Cmsghdr.bytes, Cmsghdr.read, List.append_assoc]
  congr 1
  · rw [Bytes.field_append_self (Endian.length_bytes ..), Endian.value_bytes _ _ _ hlen]
  · rw [Bytes.field_append_right (by simp), Endian.length_bytes, Nat.sub_self,
      Bytes.field_append_self (Endian.length_bytes ..), Host.u32_bytes]
    exact Int32.toInt32_toUInt32 level
  · rw [Bytes.field_append_right (by simp), Endian.length_bytes,
      Bytes.field_append_right (by simp), Endian.length_bytes, Nat.add_sub_cancel_left,
      Nat.sub_self, Bytes.field_self (Endian.length_bytes ..), Host.u32_bytes]
    exact Int32.toInt32_toUInt32 type

theorem IcmpError.record_spec (error : IcmpError) : IcmpRecord error.record error := by
  cases error with
  | v4 => exact .icmp
  | v6 => exact .icmp6

@[simp] theorem QueuedError.length_record (queued : QueuedError) :
    (queued.record host).length = sizeOfSockExtendedErr := by
  simp only [QueuedError.record, List.length_append, Endian.length_bytes, List.length_cons,
    List.length_nil, sizeOfSockExtendedErr]

theorem QueuedError.read_record (queued : QueuedError) :
    SockExtendedErr.read host (queued.record host) = queued.error.record := by
  have hget (i : Nat) (hi : 4 ≤ i) : (queued.record host).getD i 0 =
      ([queued.error.record.eeOrigin, queued.error.record.eeType, queued.error.record.eeCode,
        queued.eePad] ++ (host.endian.bytes 4 queued.error.record.eeInfo.toNat ++
          host.endian.bytes 4 queued.eeData.toNat)).getD (i - 4) 0 := by
    simp only [QueuedError.record, List.append_assoc]
    rw [List.getD_eq_getElem?_getD,
      List.getElem?_append_right (by rw [Endian.length_bytes]; exact hi), Endian.length_bytes,
      ← List.getD_eq_getElem?_getD]
  have hinfo : host.u32 ((queued.record host).field 8 4) = queued.error.record.eeInfo := by
    simp only [QueuedError.record, List.append_assoc]
    rw [Bytes.field_append_right (by simp), Endian.length_bytes,
      Bytes.field_append_right (Nat.le_refl 4)]
    rw [List.length_cons, List.length_cons, List.length_cons, List.length_cons, List.length_nil,
      Bytes.field_append_self (Endian.length_bytes ..), Host.u32_bytes]
  rw [SockExtendedErr.read, hget 4 (by omega), hget 5 (by omega), hget 6 (by omega), hinfo]
  rfl

theorem QueuedError.isRecverr_header (queued : QueuedError) :
    (queued.header host).isRecverr = true := by
  simp only [QueuedError.header]
  cases queued.ipv6 <;> rfl

theorem CmsgAt.of_bytes {header : Cmsghdr} (before body after : Bytes)
    (hlen : header.cmsgLen = host.sizeOfCmsghdr + body.length)
    (hfits : (before ++ (header.bytes host ++ body ++ after)).length ≤ host.isizeMax) :
    CmsgAt host (before ++ (header.bytes host ++ body ++ after)) before.length header := by
  simp only [List.length_append, Cmsghdr.length_bytes] at hfits
  refine ⟨?_, ?_, ?_, ?_⟩
  · simp only [List.length_append, Cmsghdr.length_bytes]
    omega
  · rw [Bytes.field_append_right (Nat.le_refl _), Nat.sub_self, List.append_assoc,
      Bytes.field_append_self (Cmsghdr.length_bytes _), Cmsghdr.read_bytes (by omega)]
  · rw [cmsgHeaderLen_eq]
    omega
  · simp only [List.length_append, Cmsghdr.length_bytes]
    omega

theorem CmsgChain.of_bytes (messages : List (Cmsg host)) (before after : Bytes)
    (hother : ∀ message ∈ messages, message.header.isRecverr = false)
    (hfits : (before ++ (messages.flatMap Cmsg.bytes ++ after)).length ≤ host.isizeMax) :
    CmsgChain host (before ++ (messages.flatMap Cmsg.bytes ++ after)) before.length
      (messages.map Cmsg.header) (before ++ messages.flatMap Cmsg.bytes).length := by
  induction messages generalizing before with
  | nil =>
    rw [List.flatMap_nil, List.append_nil]
    exact .nil
  | cons message messages ih =>
    have hbytes : before ++ ((message :: messages).flatMap Cmsg.bytes ++ after) =
        before ++ (message.header.bytes host ++ message.data ++
          (message.padding ++ messages.flatMap Cmsg.bytes ++ after)) := by
      simp only [List.flatMap_cons, Cmsg.bytes, List.append_assoc]
    have hnext : before ++ ((message :: messages).flatMap Cmsg.bytes ++ after) =
        (before ++ message.bytes) ++ (messages.flatMap Cmsg.bytes ++ after) := by
      simp only [List.flatMap_cons, List.append_assoc]
    have hat := CmsgAt.of_bytes before message.data _ rfl (hbytes ▸ hfits)
    have hrest := ih (before ++ message.bytes)
      (fun message' h => hother message' (List.mem_cons_of_mem _ h)) (hnext ▸ hfits)
    have hstop : (before ++ message.bytes).length =
        before.length + host.align message.header.cmsgLen := by
      rw [Cmsg.header, ← message.aligned, List.length_append, Cmsg.bytes, List.length_append,
        List.length_append, Cmsghdr.length_bytes]
    rw [← hbytes] at hat
    rw [← hnext, hstop] at hrest
    rw [List.append_assoc, ← List.flatMap_cons] at hrest
    exact .cons hat (hother message List.mem_cons_self) hrest

theorem RecverrAt.of_bytes (queued : QueuedError) (before after : Bytes)
    (hfits : (before ++ (queued.bytes host ++ after)).length ≤ host.isizeMax) :
    RecverrAt host (before ++ (queued.bytes host ++ after)) before.length
      ⟨queued.error, queued.address⟩ := by
  have hbytes : queued.bytes host ++ after = (queued.header host).bytes host ++
      (queued.record host ++ queued.address) ++ after := by
    simp only [QueuedError.bytes, List.append_assoc]
  have hat : CmsgAt host (before ++ (queued.bytes host ++ after)) before.length
      (queued.header host) := by
    rw [hbytes] at hfits ⊢
    refine CmsgAt.of_bytes before _ after ?_ hfits
    rw [List.length_append, QueuedError.length_record]
    rfl
  have hfield (skip width : Nat) : (before ++ (queued.bytes host ++ after)).field
      (before.length + host.sizeOfCmsghdr + skip) width =
        (queued.record host ++ (queued.address ++ after)).field skip width := by
    rw [Bytes.field_append_right (by omega), hbytes, List.append_assoc, Bytes.field_append_right
      (by rw [Cmsghdr.length_bytes]; omega), Cmsghdr.length_bytes, List.append_assoc]
    congr 1
    omega
  rw [RecverrAt.iff_of_cmsgAt hat queued.isRecverr_header]
  refine ⟨?_, ?_, ?_⟩
  · simp only [QueuedError.header]
    omega
  · have h := hfield 0 sizeOfSockExtendedErr
    rw [Nat.add_zero] at h
    rw [h, Bytes.field_append_self queued.length_record, queued.read_record]
    exact queued.error.record_spec
  · rw [hfield, Bytes.field_append_right (Nat.le_of_eq queued.length_record),
      queued.length_record, Nat.sub_self, Bytes.field_append_self]
    simp only [QueuedError.header]
    omega

theorem Accepts.of_bytes (messages : List (Cmsg host)) (queued : QueuedError) (after : Bytes)
    (hother : ∀ message ∈ messages, message.header.isRecverr = false)
    (hfits : (messages.flatMap Cmsg.bytes ++ (queued.bytes host ++ after)).length ≤
      host.isizeMax) :
    Accepts host (messages.flatMap Cmsg.bytes ++ (queued.bytes host ++ after))
      ⟨queued.error, queued.address⟩ := by
  have hchain := CmsgChain.of_bytes messages [] (queued.bytes host ++ after) hother hfits
  rw [List.nil_append, List.nil_append] at hchain
  exact ⟨_, _, hchain, .of_bytes queued _ after hfits⟩

/-- `parse_ip_recverr` accepts exactly the grammar, reads and adds within bounds whatever the bytes
are, and gives back the error and the address that are encoded behind other messages. -/
theorem parseIpRecverr_accepts (host : Host) (control : Bytes)
    (hlen : control.length ≤ host.isizeMax) :
    (∃ found, parseIpRecverr host control = .ok found ∧
      ∀ extended, found = some extended ↔ Accepts host control extended) ∧
    ∀ (messages : List (Cmsg host)) (queued : QueuedError) (after : Bytes),
      (∀ message ∈ messages, message.header.isRecverr = false) →
      control = messages.flatMap Cmsg.bytes ++ (queued.bytes host ++ after) →
      parseIpRecverr host control = .ok (some ⟨queued.error, queued.address⟩) := by
  obtain ⟨found, hfound, hiff⟩ := parseIpRecverr_spec hlen
  refine ⟨⟨found, hfound, hiff⟩, ?_⟩
  rintro messages queued after hother rfl
  rw [hfound, (hiff _).mpr (Accepts.of_bytes messages queued after hother hlen)]

/-- A time-to-live message, then a time-exceeded error from 10.0.0.1, then trailing bytes. -/
theorem parseIpRecverr_time_exceeded :
    let ttl : Cmsg .x86_64 := ⟨0, 2, [64, 0, 0, 0], [0, 0, 0, 0], by decide⟩
    let address : Bytes := [2, 0, 0, 0, 10, 0, 0, 1, 0, 0, 0, 0, 0, 0, 0, 0]
    let queued : QueuedError := ⟨false, .v4 11 0 0, 113, 0, 0, address⟩
    parseIpRecverr .x86_64 ([ttl].flatMap Cmsg.bytes ++ (queued.bytes .x86_64 ++ [1, 2, 3])) =
      .ok (some ⟨.v4 11 0 0, address⟩) :=
  (parseIpRecverr_accepts .x86_64 _ (by decide)).2 [⟨0, 2, [64, 0, 0, 0], [0, 0, 0, 0], by decide⟩]
    ⟨false, .v4 11 0 0, 113, 0, 0, _⟩ [1, 2, 3] (by decide) rfl

end Encoding

end Ringroute
