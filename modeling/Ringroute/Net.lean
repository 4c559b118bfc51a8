import Ringroute.Library.Bytes
import Ringroute.Icmp

namespace Ringroute
open Library
set_option autoImplicit true

/-- What the layouts and the integer conversions depend on. -/
structure Host where
  endian : Endian
  /-- `size_of::<usize>()`. -/
  word : Nat
  word_eq : word = 4 ∨ word = 8

namespace Host

def x86_64 : Host := ⟨.little, 8, .inr rfl⟩

def usizeMax (host : Host) : Nat := 256 ^ host.word - 1
def isizeMax (host : Host) : Nat := 256 ^ host.word / 2 - 1

def u16 (host : Host) (bs : Bytes) : UInt16 := UInt16.ofNat (host.endian.value bs)
def u32 (host : Host) (bs : Bytes) : UInt32 := UInt32.ofNat (host.endian.value bs)

/-- `u16::from_be`. -/
def fromBe (host : Host) (x : UInt16) : UInt16 :=
  UInt16.ofNat (Bytes.beValue (host.endian.bytes 2 x.toNat))

/-- `u32::to_ne_bytes`. -/
def toNeBytes (host : Host) (x : UInt32) : Bytes := host.endian.bytes 4 x.toNat

@[simp] theorem u32_bytes (host : Host) (x : UInt32) :
    host.u32 (host.endian.bytes 4 x.toNat) = x := by
  rw [u32, host.endian.value_bytes 4 x.toNat x.toNat_lt]
  exact UInt32.ofNat_toNat

theorem bytes_u32 (host : Host) (h : bs.length = 4) :
    host.endian.bytes 4 (host.u32 bs).toNat = bs := by
  have hlt := host.endian.value_lt bs
  rw [h] at hlt
  rw [u32, UInt32.toNat_ofNat_of_lt' hlt, host.endian.bytes_value bs h]

end Host

structure Ipv4Addr where
  octets : Vector UInt8 4
  deriving DecidableEq, Repr

def Ipv4Addr.localhost : Ipv4Addr := ⟨#v[127, 0, 0, 1]⟩

structure Ipv6Addr where
  octets : Vector UInt8 16
  deriving DecidableEq, Repr

inductive IpAddr where
  | v4 (ip : Ipv4Addr)
  | v6 (ip : Ipv6Addr)
  deriving DecidableEq, Repr

structure SocketAddrV4 where
  ip : Ipv4Addr
  port : UInt16
  deriving DecidableEq, Repr

structure SocketAddrV6 where
  ip : Ipv6Addr
  port : UInt16
  flowinfo : UInt32
  scopeId : UInt32
  deriving DecidableEq, Repr

inductive SocketAddr where
  | v4 (addr : SocketAddrV4)
  | v6 (addr : SocketAddrV6)
  deriving DecidableEq, Repr

namespace SocketAddr

def new (ip : IpAddr) (port : UInt16) : SocketAddr :=
  match ip with
  | .v4 ip => .v4 ⟨ip, port⟩
  | .v6 ip => .v6 ⟨ip, port, 0, 0⟩

def ip : SocketAddr → IpAddr
  | .v4 addr => .v4 addr.ip
  | .v6 addr => .v6 addr.ip

def port : SocketAddr → UInt16
  | .v4 addr => addr.port
  | .v6 addr => addr.port

@[simp] theorem new_ip (a : IpAddr) (p : UInt16) : (new a p).ip = a := by cases a <;> rfl
@[simp] theorem new_port (a : IpAddr) (p : UInt16) : (new a p).port = p := by cases a <;> rfl

end SocketAddr

def minIpv4HeaderLen : Nat := 20
def ipv6HeaderLength : Nat := 40

def afInet : Nat := 2
def afInet6 : Nat := 10
def sizeOfSockaddrIn : Nat := 16
def sizeOfSockaddrIn6 : Nat := 28

/-- A `socket2::SockAddr`, which may also be of a family that is no internet address. -/
inductive SockAddr where
  | inet (addr : SocketAddr)
  | other (family : UInt16) (len : Nat)
  deriving DecidableEq, Repr

namespace SockAddr

def asSocket : SockAddr → Option SocketAddr
  | .inet addr => some addr
  | .other _ _ => none

/-- Whether the domain is `Domain::IPV6`. -/
def isIpv6 : SockAddr → Bool
  | .inet (.v6 _) => true
  | _ => false

def len : SockAddr → Nat
  | .inet (.v4 _) => sizeOfSockaddrIn
  | .inet (.v6 _) => sizeOfSockaddrIn6
  | .other _ len => len

end SockAddr

/-- The fields of `sockaddr_in` in host order, as an unaligned read finds them. -/
structure SockaddrIn where
  sinPort : UInt16
  sinAddr : UInt32

def SockaddrIn.read (host : Host) (bs : Bytes) : SockaddrIn where
  sinPort := host.u16 (bs.field 2 2)
  sinAddr := host.u32 (bs.field 4 4)

structure SockaddrIn6 where
  sin6Port : UInt16
  sin6Flowinfo : UInt32
  sin6Addr : Vector UInt8 16
  sin6ScopeId : UInt32

def SockaddrIn6.read (host : Host) (bs : Bytes) : SockaddrIn6 where
  sin6Port := host.u16 (bs.field 2 2)
  sin6Flowinfo := host.u32 (bs.field 4 4)
  sin6Addr := (bs.field 8 16).toVector 16
  sin6ScopeId := host.u32 (bs.field 24 4)

/-- Parse a `sockaddr_in` or `sockaddr_in6` if `bytes` contains one. -/
def parseSockaddr (host : Host) (bytes : Bytes) : Option SockAddr := do
  let family := host.u16 (← bytes.slice? 0 2)
  if family.toNat = afInet then
    let address := SockaddrIn.read host (← bytes.slice? 0 sizeOfSockaddrIn)
    return .inet (.v4
      { ip := ⟨(host.toNeBytes address.sinAddr).toVector 4⟩
        port := host.fromBe address.sinPort })
  else if family.toNat = afInet6 then
    let address := SockaddrIn6.read host (← bytes.slice? 0 sizeOfSockaddrIn6)
    return .inet (.v6
      { ip := ⟨address.sin6Addr⟩
        port := host.fromBe address.sin6Port
        flowinfo := address.sin6Flowinfo
        scopeId := address.sin6ScopeId })
  else none

theorem parseSockaddr_isSocket {host : Host} (h : parseSockaddr host bytes = some addr) :
    ∃ socket, addr = .inet socket := by
  simp only [parseSockaddr, Option.bind_eq_bind, Option.bind_eq_some_iff] at h
  obtain ⟨family, _, h⟩ := h
  split at h
  · obtain ⟨_, _, h⟩ := Option.bind_eq_some_iff.mp h
    exact ⟨_, (Option.some.inj h).symm⟩
  · split at h
    · obtain ⟨_, _, h⟩ := Option.bind_eq_some_iff.mp h
      exact ⟨_, (Option.some.inj h).symm⟩
    · cases h

@[simp] theorem ok_bind (a : α) (f : α → Except ε β) : (Except.ok a >>= f) = f a := rfl

theorem except_map_eq_ok {x : Except ε α} {f : α → β} (h : x.map f = .ok b) :
    ∃ a, x = .ok a ∧ b = f a := by
  cases x with
  | error e => cases h
  | ok a =>
    cases h
    exact ⟨a, rfl, rfl⟩

theorem except_bind_eq_ok {x : Except ε α} {f : α → Except ε β} (h : x >>= f = .ok b) :
    ∃ a, x = .ok a ∧ f a = .ok b := by
  cases x with
  | error e => cases h
  | ok a => exact ⟨a, rfl, h⟩

theorem except_bind_ne_error {x : Except ε α} {f : α → Except ε β} {e : ε} (hx : x ≠ .error e)
    (hf : ∀ a, x = .ok a → f a ≠ .error e) : (x >>= f) ≠ .error e := by
  cases x with
  | error e' =>
    intro h
    cases h
    exact hx rfl
  | ok a => exact hf a rfl

/-- What would make the control message walk go wrong. -/
inductive Fault where
  | overflow
  | outOfBounds
  | outOfFuel
  deriving DecidableEq, Repr

namespace Host

/-- The result of a plain `usize` addition. -/
def usize (host : Host) (n : Nat) : Except Fault Nat :=
  if n ≤ host.usizeMax then .ok n else .error .overflow

def checkedAdd (host : Host) (a b : Nat) : Option Nat :=
  if a + b ≤ host.usizeMax then some (a + b) else none

def complement (host : Host) (n : Nat) : Nat := host.usizeMax - n

/-- `n` rounded up to a multiple of the word. -/
def align (host : Host) (n : Nat) : Nat := (n + host.word - 1) / host.word * host.word

/-- `size_of::<cmsghdr>()`. -/
def sizeOfCmsghdr (host : Host) : Nat := host.word + 8

end Host

def sizeOfSockExtendedErr : Nat := 16

/-- Equivalent of Linux's `CMSG_ALIGN` macro. -/
def cmsgAlign (host : Host) (length : Nat) : Except Fault Nat := do
  let sum ← host.usize (length + host.word)
  return (sum - 1) &&& host.complement (host.word - 1)

/-- The value of a constant expression, whose overflow would not compile. -/
def constant (value : Except Fault Nat) : Nat :=
  match value with
  | .ok n => n
  | .error _ => 0

/-- The aligned size of a `cmsghdr`, which is where a cmsg's data begins. -/
def cmsgHeaderLen (host : Host) : Nat := constant (cmsgAlign host host.sizeOfCmsghdr)

/-- `CMSG_SPACE` of a `sock_extended_err` and the widest address. -/
def recverrControlLen (host : Host) : Nat :=
  constant (cmsgAlign host (sizeOfSockExtendedErr + sizeOfSockaddrIn6)) + cmsgHeaderLen host

structure Cmsghdr where
  cmsgLen : Nat
  cmsgLevel : Int32
  cmsgType : Int32
  deriving DecidableEq, Repr

def Cmsghdr.read (host : Host) (bs : Bytes) : Cmsghdr where
  cmsgLen := host.endian.value (bs.field 0 host.word)
  cmsgLevel := (host.u32 (bs.field host.word 4)).toInt32
  cmsgType := (host.u32 (bs.field (host.word + 4) 4)).toInt32

def ipprotoIp : Int32 := 0
def ipprotoIpv6 : Int32 := 41
def ipRecverr : Int32 := 11
def ipv6Recverr : Int32 := 25

def Cmsghdr.isRecverr (header : Cmsghdr) : Bool :=
  (header.cmsgLevel, header.cmsgType) == (ipprotoIp, ipRecverr) ||
    (header.cmsgLevel, header.cmsgType) == (ipprotoIpv6, ipv6Recverr)

/-- The fields of `sock_extended_err` the walk looks at. -/
structure SockExtendedErr where
  eeOrigin : UInt8
  eeType : UInt8
  eeCode : UInt8
  eeInfo : UInt32
  deriving DecidableEq, Repr

def SockExtendedErr.read (host : Host) (bs : Bytes) : SockExtendedErr where
  eeOrigin := bs.getD 4 0
  eeType := bs.getD 5 0
  eeCode := bs.getD 6 0
  eeInfo := host.u32 (bs.field 8 4)

def soEeOriginIcmp : UInt8 := 2
def soEeOriginIcmp6 : UInt8 := 3

def SockExtendedErr.icmpError (error : SockExtendedErr) : Option IcmpError :=
  if error.eeOrigin = soEeOriginIcmp then some (.v4 error.eeType error.eeCode error.eeInfo)
  else if error.eeOrigin = soEeOriginIcmp6 then some (.v6 error.eeType error.eeCode error.eeInfo)
  else none

/-- Contains a subset of the `sock_extended_err` fields that are of interest. -/
structure ExtendedError where
  error : IcmpError
  sourceBytes : Bytes
  deriving DecidableEq, Repr

/-- An access to `bytes[start..stop]` that has not been checked. -/
def readUnaligned (bytes : Bytes) (start stop : Nat) : Except Fault Bytes :=
  match bytes.slice? start stop with
  | some found => .ok found
  | none => .error .outOfBounds

/-- The branch of `parse_ip_recverr` that has found an extended error. -/
def readRecverr (host : Host) (control : Bytes) (offset cmsgEnd : Nat) :
    Except Fault (Option ExtendedError) := do
  let dataOffset ← host.usize (offset + cmsgHeaderLen host)
  let errorEnd ← host.usize (dataOffset + sizeOfSockExtendedErr)
  if errorEnd > cmsgEnd then
    return none
  else
    let error := SockExtendedErr.read host
      (← readUnaligned control dataOffset (dataOffset + sizeOfSockExtendedErr))
    match error.icmpError with
    | none => return none
    | some icmpError =>
      return some { error := icmpError, sourceBytes := ← readUnaligned control errorEnd cmsgEnd }

/-- How one turn of the walk ends. -/
inductive Turn where
  | done (found : Option ExtendedError)
  | next (offset : Nat)

/-- The body of the loop of `parse_ip_recverr`. -/
def cmsgTurn (host : Host) (control : Bytes) (offset : Nat) : Except Fault Turn := do
  let header := Cmsghdr.read host
    (← readUnaligned control offset (offset + host.sizeOfCmsghdr))
  match host.checkedAdd offset header.cmsgLen with
  | none => return .done none
  | some cmsgEnd =>
    if header.cmsgLen < cmsgHeaderLen host ∨ cmsgEnd > control.length then
      return .done none
    else if header.isRecverr then
      return .done (← readRecverr host control offset cmsgEnd)
    else
      return .next (← host.usize (offset + (← cmsgAlign host header.cmsgLen)))

/-- The loop of `parse_ip_recverr`, for at most the given number of turns. -/
def cmsgWalk (host : Host) (control : Bytes) : Nat → Nat → Except Fault (Option ExtendedError)
  | 0, _ => .error .outOfFuel
  | fuel + 1, offset => do
    if (← host.usize (offset + host.sizeOfCmsghdr)) ≤ control.length then
      match ← cmsgTurn host control offset with
      | .done found => return found
      | .next offset => cmsgWalk host control fuel offset
    else
      return none

def parseIpRecverr (host : Host) (control : Bytes) : Except Fault (Option ExtendedError) :=
  cmsgWalk host control (control.length + 1) 0

end Ringroute
