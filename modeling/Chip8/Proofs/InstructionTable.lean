import Chip8.Proofs.Assignment
import Chip8.Proofs.Digits

/-!
This file holds the instruction table. A row gives the digits of its opcodes, the condition under
which it faults, and the assignments that it makes one after another. The row of the sprites is not
among them, because a sprite is drawn by a loop.
-/

namespace Chip8

/-- The letters of the table stand for these parts of an opcode. -/
structure Operands where
  x : Register
  y : Register
  kk : Nat
  nnn : Nat

def Opcode.operands (opcode : Opcode) : Operands where
  x := ⟨opcode.digit 2, opcode.digit_lt 2⟩
  y := ⟨opcode.digit 1, opcode.digit_lt 1⟩
  kk := 16 * opcode.digit 1 + opcode.digit 0
  nnn := 256 * opcode.digit 2 + 16 * opcode.digit 1 + opcode.digit 0

section Operands

variable (opcode : Opcode)

@[simp] theorem Opcode.x_operands : opcode.operands.x = opcode.x :=
  Fin.ext opcode.x_val.symm

@[simp] theorem Opcode.y_operands : opcode.operands.y = opcode.y :=
  Fin.ext opcode.y_val.symm

@[simp] theorem Opcode.kk_operands : opcode.operands.kk = opcode.byte.toNat :=
  opcode.byte_toNat.symm

@[simp] theorem Opcode.nnn_operands : opcode.operands.nnn = opcode.address.toNat :=
  opcode.address_toNat.symm

end Operands

/-- A pattern lists its digits from the left. A missing digit belongs to an operand. -/
structure Pattern where
  first : Nat
  second : Option Nat := none
  third : Option Nat := none
  fourth : Option Nat := none

structure Pattern.Matches (pattern : Pattern) (opcode : Opcode) : Prop where
  first : opcode.digit 3 = pattern.first
  second : ∀ digit ∈ pattern.second, opcode.digit 2 = digit
  third : ∀ digit ∈ pattern.third, opcode.digit 1 = digit
  fourth : ∀ digit ∈ pattern.fourth, opcode.digit 0 = digit

/-- A pattern of four digits matches one opcode only. -/
theorem Pattern.Matches.eq_value {pattern : Pattern} {opcode value : Opcode}
    (matched : pattern.Matches opcode)
    (digits : pattern =
      ⟨value.digit 3, some (value.digit 2), some (value.digit 1), some (value.digit 0)⟩) :
    opcode = value := by
  subst digits
  apply UInt16.toNat_inj.mp
  rw [opcode.toNat_eq_digits, value.toNat_eq_digits, matched.first, matched.second _ rfl,
    matched.third _ rfl, matched.fourth _ rfl]

instance (pattern : Pattern) (opcode : Opcode) : Decidable (pattern.Matches opcode) :=
  decidable_of_iff
    (opcode.digit 3 = pattern.first ∧ (∀ digit ∈ pattern.second, opcode.digit 2 = digit) ∧
      (∀ digit ∈ pattern.third, opcode.digit 1 = digit) ∧
      ∀ digit ∈ pattern.fourth, opcode.digit 0 = digit)
    ⟨fun ⟨first, second, third, fourth⟩ => ⟨first, second, third, fourth⟩,
      fun ⟨first, second, third, fourth⟩ => ⟨first, second, third, fourth⟩⟩

/-- The effect may look at the machine before its first assignment. -/
structure Row where
  pattern : Pattern
  except : List Opcode := []
  Faults : Operands → Machine → Prop := fun _ _ => False
  effect : Operands → Machine → List Assignment

namespace Row

/-- An opcode that has a row of its own is no longer covered by a wider row. -/
structure Covers (row : Row) (opcode : Opcode) : Prop where
  matched : row.pattern.Matches opcode
  unexcepted : opcode ∉ row.except

instance (row : Row) (opcode : Opcode) : Decidable (row.Covers opcode) :=
  decidable_of_iff (row.pattern.Matches opcode ∧ opcode ∉ row.except)
    ⟨fun ⟨matched, unexcepted⟩ => ⟨matched, unexcepted⟩,
      fun ⟨matched, unexcepted⟩ => ⟨matched, unexcepted⟩⟩

def assignments (row : Row) (opcode : Opcode) (machine : Machine) : List Assignment :=
  Assignment.advance ++
    row.effect opcode.operands (Assignment.runAll machine Assignment.advance)

def apply (row : Row) (opcode : Opcode) (machine : Machine) : Machine :=
  Assignment.runAll machine (row.assignments opcode machine)

/-- The places that a row names are the only ones that it changes. -/
def places (row : Row) (opcode : Opcode) (machine : Machine) : List Place :=
  (row.assignments opcode machine).map Assignment.place

end Row

section Rows

open Assignment

theorem registers_le_byte : 16 ≤ 256 := by decide

/-- The opcodes `0nnn`, `00E0` and `00EE` form the first family. -/
def systemRows : List Row :=
  [{ pattern := { first := 0x0 }
     except := [0x00E0, 0x00EE]
     effect := fun _ _ => [] },
   { pattern := ⟨0x0, some 0x0, some 0xE, some 0x0⟩
     effect := fun _ _ => [⟨.display, fun _ => ⟨Vector.replicate 2048 0⟩⟩] },
   { pattern := ⟨0x0, some 0x0, some 0xE, some 0xE⟩
     Faults := fun _ machine => machine.stack = []
     effect := fun _ _ =>
      [pc fun machine => (machine.stack.headD 0).toNat,
       ⟨.stack, fun machine => machine.stack.tail⟩] }]

/-- The opcodes `1nnn`, `2nnn` and `Bnnn` jump. -/
def jumpRows : List Row :=
  [{ pattern := { first := 0x1 }
     effect := fun operands _ => [pc fun _ => operands.nnn] },
   { pattern := { first := 0x2 }
     Faults := fun _ machine => 16 ≤ machine.stack.length
     effect := fun operands _ =>
      [⟨.stack, fun machine => machine.pc :: machine.stack⟩, pc fun _ => operands.nnn] },
   { pattern := { first := 0xB }
     effect := fun operands _ => [pc fun machine => operands.nnn + machine.number firstRegister] }]

/-- The opcodes `3xkk`, `4xkk`, `5xy0`, `9xy0`, `Ex9E` and `ExA1` skip. The sixteen keys are listed
from zero, and no other number is held. -/
def skipRows : List Row :=
  [{ pattern := { first := 0x3 }
     effect := fun operands machine => skip (machine.number operands.x = operands.kk) },
   { pattern := { first := 0x4 }
     effect := fun operands machine => skip (machine.number operands.x ≠ operands.kk) },
   { pattern := ⟨0x5, none, none, some 0x0⟩
     effect := fun operands machine =>
      skip (machine.number operands.x = machine.number operands.y) },
   { pattern := ⟨0x9, none, none, some 0x0⟩
     effect := fun operands machine =>
      skip (machine.number operands.x ≠ machine.number operands.y) },
   { pattern := ⟨0xE, none, some 0x9, some 0xE⟩
     effect := fun operands machine =>
      skip (machine.keypad.held.toList.getD (machine.register operands.x).toNat false) },
   { pattern := ⟨0xE, none, some 0xA, some 0x1⟩
     effect := fun operands machine =>
      skip (!machine.keypad.held.toList.getD (machine.register operands.x).toNat false) }]

/-- The opcodes `6xkk`, `7xkk`, `Annn` and `Cxkk` combine a place with a constant. A random byte is
the high byte of one output. -/
def constantRows : List Row :=
  [{ pattern := { first := 0x6 }
     effect := fun operands _ => [register operands.x fun _ => operands.kk] },
   { pattern := { first := 0x7 }
     effect := fun operands _ =>
      [register operands.x fun machine => machine.number operands.x + operands.kk] },
   { pattern := { first := 0xA }
     effect := fun operands _ => [index fun _ => operands.nnn] },
   { pattern := { first := 0xC }
     effect := fun operands _ =>
      [register operands.x fun machine =>
        ((machine.generator.next.1.toNat / 2 ^ 24 &&& operands.kk : Nat) : Int),
       ⟨.generator, fun machine => machine.generator.next.2⟩] }]

/-- The opcodes `8xy0` to `8xyE` compute. Only the sum is known before the flag is assigned. -/
def arithmeticRows : List Row :=
  [{ pattern := ⟨0x8, none, none, some 0x0⟩
     effect := fun operands _ =>
      [register operands.x fun machine => machine.number operands.y] },
   { pattern := ⟨0x8, none, none, some 0x1⟩
     effect := fun operands _ => [combine (· ||| ·) operands.x operands.y] },
   { pattern := ⟨0x8, none, none, some 0x2⟩
     effect := fun operands _ => [combine (· &&& ·) operands.x operands.y] },
   { pattern := ⟨0x8, none, none, some 0x3⟩
     effect := fun operands _ => [combine (· ^^^ ·) operands.x operands.y] },
   { pattern := ⟨0x8, none, none, some 0x4⟩
     effect := fun operands machine =>
      let sum := machine.number operands.x + machine.number operands.y
      [flag fun _ => 255 < sum, register operands.x fun _ => sum] },
   { pattern := ⟨0x8, none, none, some 0x5⟩
     effect := fun operands _ =>
      [flag fun machine => machine.number operands.y < machine.number operands.x,
       register operands.x fun machine =>
        machine.number operands.x - machine.number operands.y] },
   { pattern := ⟨0x8, none, none, some 0x6⟩
     effect := fun operands _ =>
      [register flagRegister fun machine => machine.number operands.x % 2,
       register operands.x fun machine => machine.number operands.x / 2] },
   { pattern := ⟨0x8, none, none, some 0x7⟩
     effect := fun operands _ =>
      [flag fun machine => machine.number operands.x < machine.number operands.y,
       register operands.x fun machine =>
        machine.number operands.y - machine.number operands.x] },
   { pattern := ⟨0x8, none, none, some 0xE⟩
     effect := fun operands _ =>
      [register flagRegister fun machine => if 128 ≤ machine.number operands.x then 128 else 0,
       register operands.x fun machine => 2 * machine.number operands.x] }]

/-- The opcodes `Fx07` to `Fx29` serve the timers, the keypad and the index. -/
def deviceRows : List Row :=
  [{ pattern := ⟨0xF, none, some 0x0, some 0x7⟩
     effect := fun operands _ => [register operands.x fun machine => machine.delay.toNat] },
   { pattern := ⟨0xF, none, some 0x0, some 0xA⟩
     effect := fun operands _ =>
      [⟨.mode, fun _ => .awaitingKey⟩,
       ⟨.waitRegister, fun _ => operands.x.castLE registers_le_byte⟩] },
   { pattern := ⟨0xF, none, some 0x1, some 0x5⟩
     effect := fun operands _ => [⟨.delay, fun machine => machine.register operands.x⟩] },
   { pattern := ⟨0xF, none, some 0x1, some 0x8⟩
     effect := fun operands _ => [⟨.sound, fun machine => machine.register operands.x⟩] },
   { pattern := ⟨0xF, none, some 0x1, some 0xE⟩
     effect := fun operands _ =>
      [index fun machine => machine.index.toNat + machine.number operands.x] },
   { pattern := ⟨0xF, none, some 0x2, some 0x9⟩
     effect := fun operands _ => [index fun machine => machine.number operands.x * 5] }]

/-- The opcodes `Fx33`, `Fx55` and `Fx65` reach into memory at the index. -/
def memoryRows : List Row :=
  [{ pattern := ⟨0xF, none, some 0x3, some 0x3⟩
     Faults := fun _ machine => 4096 < machine.index.toNat + 3
     effect := fun operands machine =>
      [memory machine.index.toNat fun machine => machine.number operands.x / 100,
       memory (machine.index.toNat + 1) fun machine => machine.number operands.x / 10 % 10,
       memory (machine.index.toNat + 2) fun machine => machine.number operands.x % 10] },
   { pattern := ⟨0xF, none, some 0x5, some 0x5⟩
     Faults := fun operands machine => 4096 < machine.index.toNat + (operands.x.val + 1)
     effect := fun operands machine =>
      (registersUpTo operands.x).map (store machine.index.toNat) },
   { pattern := ⟨0xF, none, some 0x6, some 0x5⟩
     Faults := fun operands machine => 4096 < machine.index.toNat + (operands.x.val + 1)
     effect := fun operands machine =>
      (registersUpTo operands.x).map (load machine.index.toNat) }]

def instructionTable : List Row :=
  systemRows ++ jumpRows ++ skipRows ++ constantRows ++ arithmeticRows ++ deviceRows ++ memoryRows

end Rows

end Chip8
