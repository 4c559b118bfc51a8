import Ringroute.Net

namespace Ringroute
open Library
set_option autoImplicit true

/-- The bytes of a `sockaddr_in` or `sockaddr_in6`, with any bytes behind its address. -/
inductive EncodesSockaddr (host : Host) : Bytes → SocketAddr → Prop where
  | v4 {addr : SocketAddrV4} (h : 8 ≤ rest.length) :
      EncodesSockaddr host (host.endian.bytes 2 afInet ++ (Bytes.beBytes 2 addr.port.toNat ++
        (addr.ip.octets.toList ++ rest))) (.v4 addr)
  | v6 {addr : SocketAddrV6} :
      EncodesSockaddr host (host.endian.bytes 2 afInet6 ++ (Bytes.beBytes 2 addr.port.toNat ++
        (host.endian.bytes 4 addr.flowinfo.toNat ++ (addr.ip.octets.toList ++
          (host.endian.bytes 4 addr.scopeId.toNat ++ rest))))) (.v6 addr)

section Fields

theorem Host.u16_toNat (host : Host) (h : bs.length = 2) :
    (host.u16 bs).toNat = host.endian.value bs := by
  have hlt := host.endian.value_lt bs
  rw [h] at hlt
  exact UInt16.toNat_ofNat_of_lt' hlt

theorem Host.bytes_u16 (host : Host) (h : bs.length = 2) :
    host.endian.bytes 2 (host.u16 bs).toNat = bs := by
  rw [host.u16_toNat h, host.endian.bytes_value bs h]

theorem Host.fromBe_u16 (host : Host) (h : bs.length = 2) :
    Bytes.beBytes 2 (host.fromBe (host.u16 bs)).toNat = bs := by
  have hlt := Bytes.beValue_lt bs
  rw [h] at hlt
  rw [Host.fromBe, host.bytes_u16 h, UInt16.toNat_ofNat_of_lt' hlt]
  exact h ▸ Bytes.beBytes_beValue bs

theorem Host.fromBe_beBytes (host : Host) (port : UInt16) :
    host.fromBe (host.u16 (Bytes.beBytes 2 port.toNat)) = port := by
  rw [Host.fromBe, host.bytes_u16 (Bytes.length_beBytes ..),
    Bytes.beValue_beBytes 2 port.toNat port.toNat_lt]
  exact UInt16.ofNat_toNat

theorem Host.toNeBytes_u32 (host : Host) (h : bs.length = 4) : host.toNeBytes (host.u32 bs) = bs :=
  host.bytes_u32 h

end Fields

section Parse

variable {host : Host}

theorem parseSockaddr_v4 (hlen : sizeOfSockaddrIn ≤ bytes.length)
    (hfamily : (host.u16 (bytes.field 0 2)).toNat = afInet) :
    parseSockaddr host bytes = some (.inet (.v4
      { ip := ⟨(bytes.field 4 4).toVector 4⟩
        port := host.fromBe (host.u16 (bytes.field 2 2)) })) := by
  simp only [sizeOfSockaddrIn] at hlen
  have hfirst := @Bytes.slice?_field bytes 0 2 (by omega)
  have hall := @Bytes.slice?_field bytes 0 16 (by omega)
  simp only [Nat.zero_add] at hfirst hall
  have htake : bytes.field 0 16 = bytes.take 16 := rfl
  simp only [parseSockaddr, hfirst, Option.bind_eq_bind, Option.bind_some, hfamily, if_true,
    sizeOfSockaddrIn, hall, SockaddrIn.read, htake]
  rw [Bytes.field_take (by omega), Bytes.field_take (by omega),
    Host.toNeBytes_u32 host (Bytes.length_field (by omega))]
  rfl

theorem parseSockaddr_v6 (hlen : sizeOfSockaddrIn6 ≤ bytes.length)
    (hfamily : (host.u16 (bytes.field 0 2)).toNat = afInet6) :
    parseSockaddr host bytes = some (.inet (.v6
      { ip := ⟨(bytes.field 8 16).toVector 16⟩
        port := host.fromBe (host.u16 (bytes.field 2 2))
        flowinfo := host.u32 (bytes.field 4 4)
        scopeId := host.u32 (bytes.field 24 4) })) := by
  simp only [sizeOfSockaddrIn6] at hlen
  have hfirst := @Bytes.slice?_field bytes 0 2 (by omega)
  have hall := @Bytes.slice?_field bytes 0 28 (by omega)
  simp only [Nat.zero_add] at hfirst hall
  have htake : bytes.field 0 28 = bytes.take 28 := rfl
  have hother : ¬ afInet6 = afInet := by decide
  simp only [parseSockaddr, hfirst, Option.bind_eq_bind, Option.bind_some, hfamily, hother, if_true,
    if_false, sizeOfSockaddrIn6, hall, SockaddrIn6.read, htake]
  rw [Bytes.field_take (by omega), Bytes.field_take (by omega), Bytes.field_take (by omega),
    Bytes.field_take (by omega)]
  rfl

theorem u16_field_of_take {bytes : Bytes} {family : Nat}
    (h : bytes.take 2 = host.endian.bytes 2 family) (hf : family < 2 ^ 16) :
    (host.u16 (bytes.field 0 2)).toNat = family := by
  have hfield : bytes.field 0 2 = host.endian.bytes 2 family := h
  rw [hfield, host.u16_toNat (Endian.length_bytes ..), Endian.value_bytes _ _ _ hf]

theorem EncodesSockaddr.parse (h : EncodesSockaddr host bytes socket) :
    parseSockaddr host bytes = some (.inet socket) := by
  have hshort (family : Nat) : (host.endian.bytes 2 family).length = 2 := Endian.length_bytes ..
  have hport (port : UInt16) : (Bytes.beBytes 2 port.toNat).length = 2 := Bytes.length_beBytes ..
  have hword (x : UInt32) : (host.endian.bytes 4 x.toNat).length = 4 := Endian.length_bytes ..
  cases h with
  | @v4 rest addr hrest =>
    have hoctets : addr.ip.octets.toList.length = 4 := Vector.length_toList ..
    rw [parseSockaddr_v4 ?_ (u16_field_of_take (List.take_left' (hshort _)) (by decide))]
    · rw [Bytes.field_skip (hshort _) (by omega), Bytes.field_skip (hport _) (by omega),
        Bytes.field_append_self hoctets, Bytes.field_skip (hshort _) (by omega),
        Bytes.field_append_self (hport _), host.fromBe_beBytes, Bytes.toVector_toList]
    · simp only [List.length_append, hshort, hport, hoctets, sizeOfSockaddrIn]
      omega
  | @v6 rest addr =>
    have hoctets : addr.ip.octets.toList.length = 16 := Vector.length_toList ..
    rw [parseSockaddr_v6 ?_ (u16_field_of_take (List.take_left' (hshort _)) (by decide))]
    · rw [Bytes.field_skip (hshort _) (by omega), Bytes.field_skip (hport _) (by omega),
        Bytes.field_skip (hword _) (by omega), Bytes.field_append_self hoctets,
        Bytes.field_skip (hshort _) (by omega), Bytes.field_append_self (hport _),
        Bytes.field_skip (hshort _) (by omega), Bytes.field_skip (hport _) (by omega),
        Bytes.field_append_self (hword _), Bytes.field_skip (hshort _) (by omega),
        Bytes.field_skip (hport _) (by omega), Bytes.field_skip (hword _) (by omega),
        Bytes.field_skip hoctets (by omega), Bytes.field_append_self (hword _),
        host.fromBe_beBytes, Bytes.toVector_toList, host.u32_bytes, host.u32_bytes]
    · simp only [List.length_append, hshort, hport, hword, hoctets, sizeOfSockaddrIn6]
      omega

theorem bytes_family {bytes : Bytes} (hlen : 2 ≤ bytes.length) :
    host.endian.bytes 2 (host.u16 (bytes.field 0 2)).toNat = bytes.field 0 2 :=
  host.bytes_u16 (Bytes.length_field hlen)

theorem EncodesSockaddr.of_v4 (hlen : sizeOfSockaddrIn ≤ bytes.length)
    (hfamily : (host.u16 (bytes.field 0 2)).toNat = afInet) :
    EncodesSockaddr host bytes (.v4
      { ip := ⟨(bytes.field 4 4).toVector 4⟩
        port := host.fromBe (host.u16 (bytes.field 2 2)) }) := by
  simp only [sizeOfSockaddrIn] at hlen
  have henc := @EncodesSockaddr.v4 host (bytes.drop 8)
    { ip := ⟨(bytes.field 4 4).toVector 4⟩
      port := host.fromBe (host.u16 (bytes.field 2 2)) } (by rw [List.length_drop]; omega)
  rw [← hfamily, bytes_family (by omega), host.fromBe_u16 (Bytes.length_field (by omega)),
    Bytes.toList_toVector (Bytes.length_field (by omega)), Bytes.field_append_drop,
    Bytes.field_append_drop, Bytes.field_append_drop, List.drop_zero] at henc
  exact henc

theorem EncodesSockaddr.of_v6 (hlen : sizeOfSockaddrIn6 ≤ bytes.length)
    (hfamily : (host.u16 (bytes.field 0 2)).toNat = afInet6) :
    EncodesSockaddr host bytes (.v6
      { ip := ⟨(bytes.field 8 16).toVector 16⟩
        port := host.fromBe (host.u16 (bytes.field 2 2))
        flowinfo := host.u32 (bytes.field 4 4)
        scopeId := host.u32 (bytes.field 24 4) }) := by
  simp only [sizeOfSockaddrIn6] at hlen
  have henc := @EncodesSockaddr.v6 host (bytes.drop 28)
    { ip := ⟨(bytes.field 8 16).toVector 16⟩
      port := host.fromBe (host.u16 (bytes.field 2 2))
      flowinfo := host.u32 (bytes.field 4 4)
      scopeId := host.u32 (bytes.field 24 4) }
  rw [← hfamily, bytes_family (by omega), host.fromBe_u16 (Bytes.length_field (by omega)),
    host.bytes_u32 (Bytes.length_field (by omega)),
    Bytes.toList_toVector (Bytes.length_field (by omega)),
    host.bytes_u32 (Bytes.length_field (by omega)), Bytes.field_append_drop,
    Bytes.field_append_drop, Bytes.field_append_drop, Bytes.field_append_drop,
    Bytes.field_append_drop, List.drop_zero] at henc
  exact henc

theorem EncodesSockaddr.of_parse (h : parseSockaddr host bytes = some (.inet socket)) :
    EncodesSockaddr host bytes socket := by
  have hparse := h
  simp only [parseSockaddr, Option.bind_eq_bind, Option.bind_eq_some_iff] at h
  obtain ⟨family, hfirst, h⟩ := h
  have htwo := Bytes.le_length_of_slice? hfirst
  have hslice := @Bytes.slice?_field bytes 0 2 (by omega)
  rw [Nat.zero_add, hfirst] at hslice
  cases hslice
  split at h
  · rename_i hfamily
    obtain ⟨_, hall, _⟩ := Option.bind_eq_some_iff.mp h
    have hlen := Bytes.le_length_of_slice? hall
    rw [parseSockaddr_v4 hlen hfamily] at hparse
    cases hparse
    exact .of_v4 hlen hfamily
  · split at h
    · rename_i hfamily
      obtain ⟨_, hall, _⟩ := Option.bind_eq_some_iff.mp h
      have hlen := Bytes.le_length_of_slice? hall
      rw [parseSockaddr_v6 hlen hfamily] at hparse
      cases hparse
      exact .of_v6 hlen hfamily
    · cases h

theorem parseSockaddr_eq_some_iff :
    parseSockaddr host bytes = some addr ↔
      ∃ socket, addr = .inet socket ∧ EncodesSockaddr host bytes socket := by
  constructor
  · intro h
    obtain ⟨socket, rfl⟩ := parseSockaddr_isSocket h
    exact ⟨socket, rfl, .of_parse h⟩
  · rintro ⟨socket, rfl, henc⟩
    exact henc.parse

/-- Whom the bytes of an address name: nobody, if they are of no internet address. -/
def Names (host : Host) (bytes : Bytes) : Option SocketAddr → Prop
  | some socket => EncodesSockaddr host bytes socket
  | none => ∀ socket, ¬ EncodesSockaddr host bytes socket

theorem Names.parse {who : Option SocketAddr} (h : Names host bytes who) :
    parseSockaddr host bytes = who.map SockAddr.inet := by
  cases who with
  | some socket => exact EncodesSockaddr.parse h
  | none =>
    apply Option.eq_none_iff_forall_ne_some.mpr
    intro addr hp
    obtain ⟨socket, _, henc⟩ := parseSockaddr_eq_some_iff.mp hp
    exact h socket henc

/-- The `sockaddr_in` the kernel stores for an address. -/
def SocketAddrV4.sockaddrIn (host : Host) (addr : SocketAddrV4) : Bytes :=
  host.endian.bytes 2 afInet ++ (Bytes.beBytes 2 addr.port.toNat ++
    (addr.ip.octets.toList ++ List.replicate 8 0))

/-- The `sockaddr_in6` the kernel stores for an address. The standard library keeps the flow info
as the field holds it, so it is in the order of the host here. -/
def SocketAddrV6.sockaddrIn6 (host : Host) (addr : SocketAddrV6) : Bytes :=
  host.endian.bytes 2 afInet6 ++ (Bytes.beBytes 2 addr.port.toNat ++
    (host.endian.bytes 4 addr.flowinfo.toNat ++ (addr.ip.octets.toList ++
      host.endian.bytes 4 addr.scopeId.toNat)))

theorem SocketAddrV4.sockaddrIn_encodes (addr : SocketAddrV4) (rest : Bytes) :
    EncodesSockaddr host (addr.sockaddrIn host ++ rest) (.v4 addr) := by
  have hpad : 8 ≤ (List.replicate 8 0 ++ rest : Bytes).length := by
    rw [List.length_append, List.length_replicate]
    exact Nat.le_add_right 8 _
  have henc := @EncodesSockaddr.v4 host _ addr hpad
  simp only [sockaddrIn, List.append_assoc]
  exact henc

theorem SocketAddrV6.sockaddrIn6_encodes (addr : SocketAddrV6) (rest : Bytes) :
    EncodesSockaddr host (addr.sockaddrIn6 host ++ rest) (.v6 addr) := by
  have henc := @EncodesSockaddr.v6 host rest addr
  simp only [sockaddrIn6, List.append_assoc]
  exact henc

theorem parseSockaddr_isSome_iff : (parseSockaddr host bytes).isSome = true ↔
    bytes.take 2 = host.endian.bytes 2 afInet ∧ sizeOfSockaddrIn ≤ bytes.length ∨
      bytes.take 2 = host.endian.bytes 2 afInet6 ∧ sizeOfSockaddrIn6 ≤ bytes.length := by
  have hshort (family : Nat) : (host.endian.bytes 2 family).length = 2 := Endian.length_bytes ..
  constructor
  · intro h
    obtain ⟨addr, haddr⟩ := Option.isSome_iff_exists.mp h
    obtain ⟨socket, _, henc⟩ := parseSockaddr_eq_some_iff.mp haddr
    cases henc with
    | v4 hrest =>
      refine .inl ⟨List.take_left' (hshort _), ?_⟩
      simp only [List.length_append, hshort, Bytes.length_beBytes, Vector.length_toList,
        sizeOfSockaddrIn]
      omega
    | v6 =>
      refine .inr ⟨List.take_left' (hshort _), ?_⟩
      simp only [List.length_append, Endian.length_bytes, Bytes.length_beBytes,
        Vector.length_toList, sizeOfSockaddrIn6]
      omega
  · rintro (⟨hfamily, hlen⟩ | ⟨hfamily, hlen⟩)
    · rw [parseSockaddr_v4 hlen (u16_field_of_take hfamily (by decide))]
      rfl
    · rw [parseSockaddr_v6 hlen (u16_field_of_take hfamily (by decide))]
      rfl

/-- `parse_sockaddr` decodes the socket addresses of the kernel and nothing else, on every host:
what it takes for an address is one by its family and its length, what the kernel stores for an
address comes back whatever stands behind it, and an address found is a socket address. -/
theorem parseSockaddr_decodes (host : Host) :
    (∀ bytes : Bytes, (parseSockaddr host bytes).isSome = true ↔
      bytes.take 2 = host.endian.bytes 2 afInet ∧ sizeOfSockaddrIn ≤ bytes.length ∨
        bytes.take 2 = host.endian.bytes 2 afInet6 ∧ sizeOfSockaddrIn6 ≤ bytes.length) ∧
    (∀ (addr : SocketAddrV4) (rest : Bytes),
      parseSockaddr host (addr.sockaddrIn host ++ rest) = some (.inet (.v4 addr))) ∧
    (∀ (addr : SocketAddrV6) (rest : Bytes),
      parseSockaddr host (addr.sockaddrIn6 host ++ rest) = some (.inet (.v6 addr))) ∧
    ∀ bytes addr, parseSockaddr host bytes = some addr → ∃ socket, addr.asSocket = some socket := by
  refine ⟨fun bytes => parseSockaddr_isSome_iff, ?_, ?_, ?_⟩
  · intro addr rest
    exact (addr.sockaddrIn_encodes rest).parse
  · intro addr rest
    exact (addr.sockaddrIn6_encodes rest).parse
  · intro bytes addr h
    obtain ⟨socket, rfl⟩ := parseSockaddr_isSocket h
    exact ⟨socket, rfl⟩

example : parseSockaddr .x86_64 [2, 0, 0, 80, 127, 0, 0, 1, 0, 0, 0, 0, 0, 0, 0, 0, 9] =
    some (.inet (.v4 ⟨.localhost, 80⟩)) := by decide

end Parse

end Ringroute
