import Mathlib.Data.List.Basic
import Mathlib.Tactic.Ring

namespace Library
set_option autoImplicit true

abbrev Bytes := List UInt8

namespace Bytes

/-- The value of a byte string whose first byte is the least significant. -/
def leValue : Bytes → Nat
  | [] => 0
  | b :: bs => b.toNat + 256 * leValue bs

/-- The low `n` bytes of a value, least significant first. -/
def leBytes : Nat → Nat → Bytes
  | 0, _ => []
  | n + 1, v => UInt8.ofNat v :: leBytes n (v / 256)

def beValue (bs : Bytes) : Nat := leValue bs.reverse

def beBytes (n v : Nat) : Bytes := (leBytes n v).reverse

@[simp] theorem length_leBytes (n v : Nat) : (leBytes n v).length = n := by
  induction n generalizing v with
  | zero => rfl
  | succ n ih => simp only [leBytes, List.length_cons, ih]

@[simp] theorem length_beBytes (n v : Nat) : (beBytes n v).length = n := by
  simp only [beBytes, List.length_reverse, length_leBytes]

theorem leValue_lt (bs : Bytes) : leValue bs < 256 ^ bs.length := by
  induction bs with
  | nil => exact Nat.one_pos
  | cons b bs ih =>
    have hb : b.toNat < 256 := b.toNat_lt
    simp only [leValue, List.length_cons, pow_succ]
    omega

theorem beValue_lt (bs : Bytes) : beValue bs < 256 ^ bs.length := by
  simpa only [beValue, List.length_reverse] using leValue_lt bs.reverse

theorem leValue_leBytes (n v : Nat) (hv : v < 256 ^ n) : leValue (leBytes n v) = v := by
  induction n generalizing v with
  | zero =>
    simp only [pow_zero] at hv
    simp only [leBytes, leValue]
    omega
  | succ n ih =>
    have hd : v / 256 < 256 ^ n := by
      rw [pow_succ] at hv
      omega
    simp only [leBytes, leValue, ih _ hd, UInt8.toNat_ofNat']
    omega

theorem leBytes_leValue (bs : Bytes) : leBytes bs.length (leValue bs) = bs := by
  induction bs with
  | nil => rfl
  | cons b bs ih =>
    have hb : b.toNat < 256 := b.toNat_lt
    have hd : (b.toNat + 256 * leValue bs) / 256 = leValue bs := by omega
    have hm : UInt8.ofNat (b.toNat + 256 * leValue bs) = b := by
      apply UInt8.toNat_inj.mp
      rw [UInt8.toNat_ofNat']
      omega
    simp only [List.length_cons, leValue, leBytes, hd, hm, ih]

theorem beValue_beBytes (n v : Nat) (hv : v < 256 ^ n) : beValue (beBytes n v) = v := by
  simp only [beValue, beBytes, List.reverse_reverse, leValue_leBytes n v hv]

theorem beBytes_beValue (bs : Bytes) : beBytes bs.length (beValue bs) = bs := by
  have h := leBytes_leValue bs.reverse
  simp only [List.length_reverse] at h
  simp only [beBytes, beValue, h, List.reverse_reverse]

theorem beValue_eq_iff {bs : Bytes} (h : bs.length = n) (hv : v < 256 ^ n) :
    beValue bs = v ↔ bs = beBytes n v := by
  constructor
  · rintro rfl
    exact h ▸ (beBytes_beValue bs).symm
  · rintro rfl
    exact beValue_beBytes n v hv

end Bytes

inductive Endian where
  | little
  | big
  deriving DecidableEq, Repr

/-- The value a host of the given endianness reads from a byte string. -/
def Endian.value : Endian → Bytes → Nat
  | .little => Bytes.leValue
  | .big => Bytes.beValue

/-- The `n` bytes a host of the given endianness stores for a value. -/
def Endian.bytes : Endian → Nat → Nat → Bytes
  | .little => Bytes.leBytes
  | .big => Bytes.beBytes

@[simp] theorem Endian.length_bytes (e : Endian) (n v : Nat) : (e.bytes n v).length = n := by
  cases e with
  | little => exact Bytes.length_leBytes n v
  | big => exact Bytes.length_beBytes n v

theorem Endian.value_lt (e : Endian) (bs : Bytes) : e.value bs < 256 ^ bs.length := by
  cases e with
  | little => exact Bytes.leValue_lt bs
  | big => exact Bytes.beValue_lt bs

theorem Endian.value_bytes (e : Endian) (n v : Nat) (hv : v < 256 ^ n) :
    e.value (e.bytes n v) = v := by
  cases e with
  | little => exact Bytes.leValue_leBytes n v hv
  | big => exact Bytes.beValue_beBytes n v hv

theorem Endian.bytes_value (e : Endian) (bs : Bytes) (hn : bs.length = n) :
    e.bytes n (e.value bs) = bs := by
  subst hn
  cases e with
  | little => exact Bytes.leBytes_leValue bs
  | big => exact Bytes.beBytes_beValue bs

/-- The `width` bytes at `offset`. -/
def Bytes.field (bs : Bytes) (offset width : Nat) : Bytes := (bs.drop offset).take width

theorem Bytes.field_append_left {a b : Bytes} (h : offset + width ≤ a.length) :
    (a ++ b).field offset width = a.field offset width := by
  rw [Bytes.field, List.drop_append_of_le_length (by omega), List.take_append_of_le_length]
  · rfl
  · rw [List.length_drop]
    omega

theorem Bytes.field_append_right {a b : Bytes} (h : a.length ≤ offset) :
    (a ++ b).field offset width = b.field (offset - a.length) width := by
  rw [Bytes.field, List.drop_append, List.drop_eq_nil_of_le h, List.nil_append]
  rfl

theorem Bytes.field_skip {a b : Bytes} (h : a.length = n) (hn : n ≤ offset) :
    (a ++ b).field offset width = b.field (offset - n) width := by
  rw [Bytes.field_append_right (by omega), h]

theorem Bytes.field_self {a : Bytes} (h : a.length = width) : a.field 0 width = a :=
  List.take_of_length_le (Nat.le_of_eq h)

theorem Bytes.field_append_self {a b : Bytes} (h : a.length = width) :
    (a ++ b).field 0 width = a := by
  rw [Bytes.field_append_left (by omega), Bytes.field_self h]

theorem Bytes.field_take {bs : Bytes} (h : offset + width ≤ n) :
    Bytes.field (bs.take n) offset width = bs.field offset width := by
  rw [Bytes.field, List.drop_take, List.take_take, Nat.min_eq_left (by omega)]
  rfl

theorem Bytes.length_field {bs : Bytes} (h : offset + width ≤ bs.length) :
    (bs.field offset width).length = width := by
  rw [Bytes.field, List.length_take, List.length_drop]
  omega

theorem Bytes.beValue_field_lt (bs : Bytes) (offset width : Nat) :
    Bytes.beValue (bs.field offset width) < 256 ^ width := by
  have hle : (bs.field offset width).length ≤ width := List.length_take_le ..
  exact Nat.lt_of_lt_of_le (Bytes.beValue_lt _) (Nat.pow_le_pow_right (by decide) hle)

theorem Bytes.field_append_drop (bs : Bytes) (offset width : Nat) :
    bs.field offset width ++ bs.drop (offset + width) = bs.drop offset := by
  rw [← List.drop_drop]
  exact List.take_append_drop width (bs.drop offset)

/-- The first `n` bytes as an array, missing ones read as zero. -/
def Bytes.toVector (n : Nat) (bs : Bytes) : Vector UInt8 n := Vector.ofFn fun i => bs.getD i 0

@[simp] theorem Bytes.toVector_toList (v : Vector UInt8 n) : Bytes.toVector n v.toList = v := by
  ext i hi
  simp [Bytes.toVector]

@[simp] theorem Bytes.toList_toVector {bs : Bytes} (h : bs.length = n) :
    (Bytes.toVector n bs).toList = bs := by
  apply List.ext_getElem
  · rw [Vector.length_toList, h]
  · intro i hi hi'
    simp [Bytes.toVector, hi']

/-- Writes a byte string over the bytes at `offset`. -/
def Bytes.overwrite (bs : Bytes) (offset : Nat) (new : Bytes) : Bytes :=
  bs.take offset ++ new ++ bs.drop (offset + new.length)

/-- Bytes `start..stop` of a byte string, when it has them. -/
def Bytes.slice? (bs : Bytes) (start stop : Nat) : Option Bytes :=
  if start ≤ stop ∧ stop ≤ bs.length then some ((bs.take stop).drop start) else none

theorem Bytes.slice?_eq_some {bs : Bytes} {start stop : Nat} (h : start ≤ stop)
    (h' : stop ≤ bs.length) : bs.slice? start stop = some ((bs.take stop).drop start) :=
  if_pos ⟨h, h'⟩

theorem Bytes.le_length_of_slice? {bs : Bytes} (h : bs.slice? start stop = some found) :
    stop ≤ bs.length := by
  rw [Bytes.slice?] at h
  split at h
  · rename_i hle
    exact hle.2
  · cases h

theorem Bytes.slice?_field {bs : Bytes} {start width : Nat} (h : start + width ≤ bs.length) :
    bs.slice? start (start + width) = some (bs.field start width) := by
  rw [Bytes.slice?_eq_some (Nat.le_add_right _ _) h, List.drop_take, Nat.add_sub_cancel_left]
  rfl

theorem Bytes.slice?_take {bs : Bytes} (h : stop ≤ n) :
    Bytes.slice? (bs.take n) start stop = bs.slice? start stop := by
  have hlen : stop ≤ (bs.take n).length ↔ stop ≤ bs.length := by
    rw [List.length_take]
    omega
  simp only [Bytes.slice?, hlen, List.take_take, Nat.min_eq_left h]

theorem Bytes.slice?_append {pre mid post : Bytes} :
    (pre ++ mid ++ post).slice? pre.length (pre.length + mid.length) = some mid := by
  rw [Bytes.slice?_eq_some (Nat.le_add_right _ _) (by simp)]
  simp [List.take_append, List.take_of_length_le]

theorem and_two_pow_sub (hk : k ≤ n) (hx : x < 2 ^ n) :
    x &&& (2 ^ n - 1 - (2 ^ k - 1)) = x / 2 ^ k * 2 ^ k := by
  have hpow : 2 ^ k ≤ 2 ^ n := Nat.pow_le_pow_right Nat.two_pos hk
  have hpos : 0 < 2 ^ k := Nat.two_pow_pos k
  have hmask : 2 ^ n - 1 - (2 ^ k - 1) = 2 ^ n - ((2 ^ k - 1) + 1) := by omega
  apply Nat.eq_of_testBit_eq
  intro i
  rw [Nat.testBit_and, hmask, Nat.testBit_two_pow_sub_succ (by omega), Nat.testBit_two_pow_sub_one,
    Nat.testBit_mul_two_pow, Nat.testBit_div_two_pow]
  by_cases hi : k ≤ i
  · have hx' (hn : n ≤ i) : x.testBit i = false :=
      Nat.testBit_lt_two_pow (Nat.lt_of_lt_of_le hx (Nat.pow_le_pow_right Nat.two_pos hn))
    by_cases hn : n ≤ i
    · simp [hx' hn, Nat.sub_add_cancel hi]
    · simp [hi, Nat.sub_add_cancel hi, Nat.not_lt.mpr hi, Nat.lt_of_not_le hn]
  · simp [hi, Nat.lt_of_not_le hi]

end Library
