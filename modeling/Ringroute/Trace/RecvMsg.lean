import Ringroute.Net

namespace Ringroute
open Library
set_option autoImplicit true

/-- `size_of::<io_uring_recvmsg_out>()`. -/
def sizeOfRecvmsgOut : Nat := 4 * 4

structure Msghdr where
  msgNamelen : Nat
  msgControllen : Nat
  deriving DecidableEq, Repr

/-- A multishot receive's buffer, taken apart. -/
structure RecvMsgOut where
  nameData : Bytes
  controlData : Bytes
  payloadData : Bytes
  isControlDataTruncated : Bool
  deriving DecidableEq, Repr

/-- The `io_uring_recvmsg_out` at the start of a buffer. -/
structure RecvMsgHeader where
  namelen : UInt32
  controllen : UInt32
  payloadlen : UInt32
  flags : UInt32
  deriving DecidableEq, Repr

def RecvMsgHeader.bytes (host : Host) (header : RecvMsgHeader) : Bytes :=
  host.endian.bytes 4 header.namelen.toNat ++ host.endian.bytes 4 header.controllen.toNat ++
    host.endian.bytes 4 header.payloadlen.toNat ++ host.endian.bytes 4 header.flags.toNat

def RecvMsgHeader.read (host : Host) (bs : Bytes) : RecvMsgHeader where
  namelen := host.u32 (bs.field 0 4)
  controllen := host.u32 (bs.field 4 4)
  payloadlen := host.u32 (bs.field 8 4)
  flags := host.u32 (bs.field 12 4)

@[simp] theorem RecvMsgHeader.length_bytes (host : Host) (header : RecvMsgHeader) :
    (header.bytes host).length = sizeOfRecvmsgOut := by
  simp only [RecvMsgHeader.bytes, List.length_append, Endian.length_bytes, sizeOfRecvmsgOut]

theorem RecvMsgHeader.read_bytes (host : Host) (header : RecvMsgHeader) (rest : Bytes) :
    RecvMsgHeader.read host (header.bytes host ++ rest) = header := by
  obtain ⟨namelen, controllen, payloadlen, flags⟩ := header
  simp only [RecvMsgHeader.bytes, RecvMsgHeader.read, List.append_assoc]
  congr 1
  · rw [Bytes.field_append_self (Endian.length_bytes ..), Host.u32_bytes]
  · rw [Bytes.field_append_right (by simp), Endian.length_bytes, Nat.sub_self,
      Bytes.field_append_self (Endian.length_bytes ..), Host.u32_bytes]
  · rw [Bytes.field_append_right (by simp), Endian.length_bytes,
      Bytes.field_append_right (by simp), Endian.length_bytes, Nat.sub_self,
      Bytes.field_append_self (Endian.length_bytes ..), Host.u32_bytes]
  · rw [Bytes.field_append_right (by simp), Endian.length_bytes,
      Bytes.field_append_right (by simp), Endian.length_bytes,
      Bytes.field_append_right (by simp), Endian.length_bytes, Nat.sub_self,
      Bytes.field_append_self (Endian.length_bytes ..), Host.u32_bytes]

theorem RecvMsgHeader.bytes_read (host : Host) (h : bs.length = sizeOfRecvmsgOut) :
    (RecvMsgHeader.read host bs).bytes host = bs := by
  simp only [sizeOfRecvmsgOut] at h
  have hlen (offset : Nat) (ho : offset + 4 ≤ 16) : (bs.field offset 4).length = 4 := by
    simp only [Bytes.field, List.length_take, List.length_drop, h]
    omega
  simp only [RecvMsgHeader.bytes, RecvMsgHeader.read, Host.bytes_u32 host (hlen 0 (by omega)),
    Host.bytes_u32 host (hlen 4 (by omega)), Host.bytes_u32 host (hlen 8 (by omega)),
    Host.bytes_u32 host (hlen 12 (by omega))]
  simp only [Bytes.field, ← List.take_add, List.drop_zero]
  exact List.take_of_length_le (by omega)

def msgCtrunc : UInt32 := 8

/-- `RecvMsgOut::parse`, with what `handle_read` relies on: behind the header stand a name field
and a control field of the lengths the request reserved, then the payload, each of them valid as
far as the header says. -/
structure RecvMsgOutApi (host : Host) where
  parse : Bytes → Msghdr → Option RecvMsgOut
  parse_eq : ∀ (header : RecvMsgHeader) (name control payload : Bytes) (msghdr : Msghdr),
    name.length = msghdr.msgNamelen → control.length = msghdr.msgControllen →
    parse (header.bytes host ++ name ++ control ++ payload) msghdr = some
      { nameData := name.take header.namelen.toNat
        controlData := control.take header.controllen.toNat
        payloadData := payload.take header.payloadlen.toNat
        isControlDataTruncated := header.flags &&& msgCtrunc != 0 }

/-- The layout itself as a parser. -/
def RecvMsgOutApi.layout (host : Host) : RecvMsgOutApi host where
  parse bs msghdr :=
    if bs.length < sizeOfRecvmsgOut + msghdr.msgNamelen + msghdr.msgControllen then none
    else
      let header := RecvMsgHeader.read host bs
      let rest := bs.drop sizeOfRecvmsgOut
      some
        { nameData := (rest.take msghdr.msgNamelen).take header.namelen.toNat
          controlData := ((rest.drop msghdr.msgNamelen).take msghdr.msgControllen).take
            header.controllen.toNat
          payloadData := (rest.drop (msghdr.msgNamelen + msghdr.msgControllen)).take
            header.payloadlen.toNat
          isControlDataTruncated := header.flags &&& msgCtrunc != 0 }
  parse_eq := by
    intro header name control payload msghdr hn hc
    have hlong : ¬ (header.bytes host ++ name ++ control ++ payload).length <
        sizeOfRecvmsgOut + msghdr.msgNamelen + msghdr.msgControllen := by
      simp only [List.length_append, RecvMsgHeader.length_bytes]
      omega
    have hread : RecvMsgHeader.read host (header.bytes host ++ name ++ control ++ payload) =
        header := by
      simp only [List.append_assoc, RecvMsgHeader.read_bytes]
    have hrest : (header.bytes host ++ name ++ control ++ payload).drop sizeOfRecvmsgOut =
        name ++ (control ++ payload) := by
      rw [← RecvMsgHeader.length_bytes host header]
      simp only [List.append_assoc, List.drop_left]
    have hpayload : (name ++ (control ++ payload)).drop (name.length + control.length) =
        payload := by
      rw [← List.drop_drop, List.drop_left, List.drop_left]
    simp only [hread, hrest]
    rw [if_neg hlong, ← hn, ← hc, hpayload, List.take_left, List.drop_left, List.take_left]

end Ringroute
