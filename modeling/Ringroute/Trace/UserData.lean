import Mathlib.Data.Nat.Basic

namespace Ringroute
set_option autoImplicit true

/-- Possible states an io_uring event can represent. -/
inductive State where
  | write
  | read
  | timeout
  deriving DecidableEq, Repr

def State.intoBits : State → UInt64
  | .write => 0
  | .read => 1
  | .timeout => 2

/-- `none` is the panic on an unexpected value. -/
def State.fromBits (value : UInt64) : Option State :=
  if value = 0 then some .write
  else if value = 1 then some .read
  else if value = 2 then some .timeout
  else none

/-- A 16-bit slot below a 48-bit state. -/
structure UserData where
  bits : UInt64
  deriving DecidableEq, Repr

namespace UserData

def new : UserData := ⟨0⟩

def withSlot (data : UserData) (slot : UInt16) : UserData :=
  ⟨(data.bits &&& (0xffffffffffff0000 : UInt64)) ||| slot.toUInt64⟩

def withState (data : UserData) (state : State) : UserData :=
  ⟨(data.bits &&& (0xffff : UInt64)) ||| (state.intoBits <<< 16)⟩

def slot (data : UserData) : UInt16 := data.bits.toUInt16

def state (data : UserData) : Option State := State.fromBits (data.bits >>> 16)

@[simp] theorem new_withSlot_zero : new.withSlot 0 = new := rfl

theorem intoBits_toNat_lt (state : State) : state.intoBits.toNat < 3 := by
  cases state <;> decide

theorem tag_toNat (slot : UInt16) (state : State) :
    ((new.withSlot slot).withState state).bits.toNat =
      state.intoBits.toNat * 65536 + slot.toNat := by
  have hs : slot.toNat < 2 ^ 16 := slot.toNat_lt
  have hc := intoBits_toNat_lt state
  have hmask : (0xffff : UInt64).toNat = 2 ^ 16 - 1 := rfl
  have hshift : (state.intoBits <<< 16).toNat = state.intoBits.toNat <<< 16 := by
    rw [UInt64.toNat_shiftLeft]
    change state.intoBits.toNat <<< 16 % 2 ^ 64 = _
    rw [Nat.shiftLeft_eq]
    omega
  simp only [withState, withSlot, new, UInt64.zero_and, UInt64.zero_or, UInt64.toNat_or,
    UInt64.toNat_and, UInt16.toNat_toUInt64, hmask, hshift, Nat.and_two_pow_sub_one_eq_mod,
    Nat.mod_eq_of_lt hs]
  rw [Nat.or_comm, ← Nat.shiftLeft_add_eq_or_of_lt hs, Nat.shiftLeft_eq]

@[simp] theorem slot_tag (slot : UInt16) (state : State) :
    ((new.withSlot slot).withState state).slot = slot := by
  have hs : slot.toNat < 2 ^ 16 := slot.toNat_lt
  apply UInt16.toNat_inj.mp
  rw [UserData.slot, UInt64.toNat_toUInt16, tag_toNat]
  omega

@[simp] theorem state_tag (slot : UInt16) (state : State) :
    ((new.withSlot slot).withState state).state = some state := by
  have hs : slot.toNat < 2 ^ 16 := slot.toNat_lt
  have hbits : ((new.withSlot slot).withState state).bits >>> 16 = state.intoBits := by
    apply UInt64.toNat_inj.mp
    rw [UInt64.toNat_shiftRight, tag_toNat]
    change (state.intoBits.toNat * 65536 + slot.toNat) >>> 16 = _
    rw [Nat.shiftRight_eq_div_pow]
    omega
  rw [UserData.state, hbits]
  cases state <;> rfl

end UserData

end Ringroute
