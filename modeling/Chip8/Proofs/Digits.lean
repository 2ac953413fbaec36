import Chip8.Execution
import Mathlib.Data.Nat.Bitwise

/-!
This file holds the hexadecimal digits of an opcode. The fields of an opcode are read off its
digits, and so are the few opcodes that can fault.
-/

namespace Chip8

namespace Opcode

/-- The digits are counted from the right, starting at zero. -/
def digit (opcode : Opcode) (place : Nat) : Nat :=
  opcode.toNat / 16 ^ place % 16

theorem toNat_eq_digits (opcode : Opcode) :
    opcode.toNat =
      4096 * opcode.digit 3 + 256 * opcode.digit 2 + 16 * opcode.digit 1 + opcode.digit 0 := by
  have bound : opcode.toNat < 65536 := opcode.toNat_lt
  simp only [digit]
  omega

theorem family_val (opcode : Opcode) : opcode.family.val = opcode.digit 3 := by
  simp only [family, digit, Fin.val_ofNat, UInt16.toNat_shiftRight, Nat.shiftRight_eq_div_pow]
  rfl

theorem x_val (opcode : Opcode) : opcode.x.val = opcode.digit 2 := by
  simp only [x, digit, Fin.val_ofNat, UInt16.toNat_shiftRight, Nat.shiftRight_eq_div_pow]
  rfl

theorem y_val (opcode : Opcode) : opcode.y.val = opcode.digit 1 := by
  simp only [y, digit, Fin.val_ofNat, UInt16.toNat_shiftRight, Nat.shiftRight_eq_div_pow]
  rfl

theorem nibble_val (opcode : Opcode) : opcode.nibble.val = opcode.digit 0 := by
  simp [nibble, digit]

theorem byte_toNat (opcode : Opcode) :
    opcode.byte.toNat = 16 * opcode.digit 1 + opcode.digit 0 := by
  simp only [byte, digit, UInt16.toNat_toUInt8]
  omega

theorem address_toNat (opcode : Opcode) :
    opcode.address.toNat = 256 * opcode.digit 2 + 16 * opcode.digit 1 + opcode.digit 0 := by
  have low : opcode.address.toNat = opcode.toNat % 4096 := by
    simp only [address, UInt16.toNat_and]
    exact Nat.and_two_pow_sub_one_eq_mod opcode.toNat 12
  rw [low]
  simp only [digit]
  omega

theorem family_eq {opcode : Opcode} {value : Fin 16} (same : opcode.digit 3 = value.val) :
    opcode.family = value :=
  Fin.ext (opcode.family_val.trans same)

theorem nibble_eq {opcode : Opcode} {value : Fin 16} (same : opcode.digit 0 = value.val) :
    opcode.nibble = value :=
  Fin.ext (opcode.nibble_val.trans same)

theorem digit_lt (opcode : Opcode) (place : Nat) : opcode.digit place < 16 :=
  Nat.mod_lt _ (by decide)

theorem byte_eq_iff (opcode : Opcode) (value : UInt8) :
    opcode.byte = value ↔
      opcode.digit 1 = value.toNat / 16 ∧ opcode.digit 0 = value.toNat % 16 := by
  have joined := opcode.byte_toNat
  have low := opcode.digit_lt 0
  rw [← UInt8.toNat_inj]
  omega

end Opcode

end Chip8
