import Chip8.Proofs.Assignment
import Chip8.Proofs.Cycle
import Chip8.Proofs.Digits

/-!
This file holds the sums and differences of registers. A sum is taken before the flag is assigned. A
difference is taken afterwards, so that an operand in the flag register is replaced by the flag.
-/

namespace Chip8

theorem toNat_sub_byte (first second : UInt8) :
    ((first - second).toNat : Int) = ((first.toNat : Int) - second.toNat) % 256 := by
  have bound := second.toNat_lt
  rw [UInt8.toNat_sub]
  omega

namespace Machine

/-- A computation leaves its result in the target, and its flag in the last register unless the
target is that register. -/
structure Computes (before after : Machine) (target : Register) (result : Int) (flag : Bool) :
    Prop where
  result : after.number target = result % 256
  flag : target ≠ flagRegister → after.number flagRegister = if flag then 1 else 0
  others : ∀ other, other ≠ target → other ≠ flagRegister →
    after.register other = before.register other

/-- The flag register already holds the flag when an operand is read from it. -/
def operandBehind (machine : Machine) (flag : Bool) (source : Register) : Int :=
  if source = flagRegister then (if flag then 1 else 0) else machine.number source

/-- Both subtractions take a difference behind the flag. -/
def difference (machine : Machine) (target minuend subtrahend : Register) : Machine :=
  let flagged := machine.setFlag (machine.register subtrahend < machine.register minuend)
  flagged.setRegister target (flagged.register minuend - flagged.register subtrahend)

section Computations

variable (machine : Machine)

theorem subtract_eq_difference (x y : Register) :
    machine.subtract x y = machine.difference x x y := rfl

theorem subtractFrom_eq_difference (x y : Register) :
    machine.subtractFrom x y = machine.difference x y x := rfl

theorem number_nonneg (source : Register) : 0 ≤ machine.number source :=
  Int.natCast_nonneg _

theorem number_lt (source : Register) : machine.number source < 256 := by
  have bound := (machine.register source).toNat_lt
  simp only [number]
  omega

theorem number_setFlag (flag : Bool) (source : Register) :
    (machine.setFlag flag).number source = machine.operandBehind flag source := by
  simp only [number, setFlag, register_setRegister, operandBehind, eq_comm]
  split
  · cases flag <;> rfl
  · rfl

/-- The result is assigned last, so that it replaces the flag in the flag register. -/
theorem computes_setRegister (flag : Bool) (target : Register) {value : UInt8} {result : Int}
    (same : (value.toNat : Int) = result % 256) :
    machine.Computes ((machine.setFlag flag).setRegister target value) target result flag where
  result := by
    rw [number, register_setRegister, if_pos rfl, same]
  flag := by
    intro apart
    rw [number, register_setRegister, if_neg apart]
    exact (machine.number_setFlag flag flagRegister).trans (if_pos rfl)
  others := by
    intro other notTarget notFlag
    rw [register_setRegister, if_neg notTarget.symm, setFlag, register_setRegister,
      if_neg notFlag.symm]

/-- The registers are not touched by the advance. -/
theorem Computes.of_advance {machine after : Machine} {target : Register} {result : Int}
    {flag : Bool} (computed : machine.advance.Computes after target result flag) :
    machine.Computes after target result flag :=
  ⟨computed.result, computed.flag, computed.others⟩

theorem computes_add (x y : Register) :
    machine.Computes (machine.add x y) x (machine.number x + machine.number y)
      (255 < machine.number x + machine.number y) := by
  have carried : (255 < (machine.register x).toNat + (machine.register y).toNat) =
      (255 < machine.number x + machine.number y) := by
    simp only [number, eq_iff_iff]
    omega
  simp only [add, carried]
  apply computes_setRegister
  simp only [number, UInt8.toNat_ofNat']
  omega

theorem computes_difference (target minuend subtrahend : Register) :
    let flag := decide (machine.number subtrahend < machine.number minuend)
    machine.Computes (machine.difference target minuend subtrahend) target
      (machine.operandBehind flag minuend - machine.operandBehind flag subtrahend) flag := by
  intro flag
  have lent : decide (machine.register subtrahend < machine.register minuend) = flag := by
    simp only [flag, number, UInt8.lt_iff_toNat_lt, Int.ofNat_lt]
  simp only [difference, lent]
  apply computes_setRegister
  rw [← number_setFlag, ← number_setFlag]
  exact toNat_sub_byte _ _

/-- The flag spoils a difference when it replaces one operand by another number. -/
theorem operandBehind_sub_iff (flag : Bool) (minuend subtrahend : Register) :
    (machine.operandBehind flag minuend - machine.operandBehind flag subtrahend) % 256 =
        (machine.number minuend - machine.number subtrahend) % 256 ↔
      (minuend = flagRegister ↔ subtrahend = flagRegister) ∨
        machine.number flagRegister = if flag then 1 else 0 := by
  have lower := machine.number_nonneg flagRegister
  have upper := machine.number_lt flagRegister
  have written : (if flag then 1 else 0 : Int) = 0 ∨ (if flag then 1 else 0 : Int) = 1 := by
    cases flag <;> simp
  unfold operandBehind
  generalize (if flag then 1 else 0 : Int) = behind at written ⊢
  by_cases minuendFlag : minuend = flagRegister
  · by_cases subtrahendFlag : subtrahend = flagRegister
    · simp [minuendFlag, subtrahendFlag]
    · simp only [minuendFlag, subtrahendFlag, if_true, if_false, true_iff, false_or]
      omega
  · by_cases subtrahendFlag : subtrahend = flagRegister
    · simp only [minuendFlag, subtrahendFlag, if_true, if_false, false_iff, not_true, false_or]
      omega
    · simp [minuendFlag, subtrahendFlag]

/-- What a difference means for the machine before the advance. -/
theorem difference_advance (target minuend subtrahend : Register) :
    let after := machine.advance.difference target minuend subtrahend
    let a := machine.number minuend
    let b := machine.number subtrahend
    machine.Computes after target
        (machine.operandBehind (b < a) minuend - machine.operandBehind (b < a) subtrahend)
        (b < a) ∧
      (after.number target = (a - b) % 256 ↔
        (minuend = flagRegister ↔ subtrahend = flagRegister) ∨
          machine.number flagRegister = if b < a then 1 else 0) := by
  intro after a b
  have computed : machine.Computes after target
      (machine.operandBehind (b < a) minuend - machine.operandBehind (b < a) subtrahend) (b < a) :=
    (machine.advance.computes_difference target minuend subtrahend).of_advance
  refine ⟨computed, ?_⟩
  rw [computed.result]
  simpa using machine.operandBehind_sub_iff (b < a) minuend subtrahend

/-- A register operation that never faults is performed on the advanced machine. -/
theorem execute_of_arithmetic {opcode : Opcode} {instruction : Instruction}
    (computes : opcode.digit 3 = 8) (listed : Instruction.ofArithmetic? opcode = some instruction)
    (plain : instruction.fault? machine = none) :
    machine.execute opcode = machine.advance.perform instruction := by
  have family : opcode.family = 8 := Opcode.family_eq computes
  have decoded : Instruction.decode? opcode = some instruction := by
    simp only [Instruction.decode?, family, listed]
  exact execute_of_ok (verdict_eq_ok.mpr ⟨decoded, plain⟩)

end Computations

end Machine

/-- Sums and all three flags are right for every pair of registers. A difference is taken of the
operands as they stand behind the flag. It is the difference of the operands before unless exactly
one of them is the flag register and the flag changes that register. -/
theorem carry_flag_right_for_every_pair (machine : Machine) (opcode : Opcode)
    (computes : opcode.digit 3 = 8) :
    let after := machine.execute opcode
    let a := machine.number opcode.x
    let b := machine.number opcode.y
    (opcode.digit 0 = 4 → machine.Computes after opcode.x (a + b) (255 < a + b)) ∧
      (opcode.digit 0 = 5 →
        machine.Computes after opcode.x
            (machine.operandBehind (b < a) opcode.x - machine.operandBehind (b < a) opcode.y)
            (b < a) ∧
          (after.number opcode.x = (a - b) % 256 ↔
            (opcode.x = flagRegister ↔ opcode.y = flagRegister) ∨
              machine.number flagRegister = if b < a then 1 else 0)) ∧
      (opcode.digit 0 = 7 →
        machine.Computes after opcode.x
            (machine.operandBehind (a < b) opcode.y - machine.operandBehind (a < b) opcode.x)
            (a < b) ∧
          (after.number opcode.x = (b - a) % 256 ↔
            (opcode.y = flagRegister ↔ opcode.x = flagRegister) ∨
              machine.number flagRegister = if a < b then 1 else 0)) := by
  intro after a b
  refine ⟨?_, ?_, ?_⟩
  · intro adds
    have nibble : opcode.nibble = 4 := Opcode.nibble_eq adds
    have listed : Instruction.ofArithmetic? opcode = some (.add opcode.x opcode.y) := by
      simp only [Instruction.ofArithmetic?, nibble]
    have executed : after = machine.advance.add opcode.x opcode.y :=
      machine.execute_of_arithmetic computes listed rfl
    rw [executed]
    exact (machine.advance.computes_add opcode.x opcode.y).of_advance
  · intro subtracts
    have nibble : opcode.nibble = 5 := Opcode.nibble_eq subtracts
    have listed : Instruction.ofArithmetic? opcode = some (.subtract opcode.x opcode.y) := by
      simp only [Instruction.ofArithmetic?, nibble]
    have executed : after = machine.advance.subtract opcode.x opcode.y :=
      machine.execute_of_arithmetic computes listed rfl
    rw [executed, Machine.subtract_eq_difference]
    exact machine.difference_advance opcode.x opcode.x opcode.y
  · intro subtracts
    have nibble : opcode.nibble = 7 := Opcode.nibble_eq subtracts
    have listed : Instruction.ofArithmetic? opcode = some (.subtractFrom opcode.x opcode.y) := by
      simp only [Instruction.ofArithmetic?, nibble]
    have executed : after = machine.advance.subtractFrom opcode.x opcode.y :=
      machine.execute_of_arithmetic computes listed rfl
    rw [executed, Machine.subtractFrom_eq_difference]
    exact machine.difference_advance opcode.x opcode.y opcode.x

/-- The sum takes the old flag register, and the difference takes the flag. -/
theorem carry_flag_right_through_flag :
    let machine := ((Machine.fresh (MersenneTwister.seeded 0)).setRegister 1 0x30).setRegister
      flagRegister 0x20
    (machine.execute 0x81F4).number 1 = 0x50 ∧ (machine.execute 0x81F4).number flagRegister = 0 ∧
      (machine.execute 0x81F5).number 1 = 0x2F ∧
        (machine.execute 0x81F5).number flagRegister = 1 := by
  intro machine
  obtain ⟨sum, _, _⟩ := carry_flag_right_for_every_pair machine 0x81F4 (by decide)
  obtain ⟨_, difference, _⟩ := carry_flag_right_for_every_pair machine 0x81F5 (by decide)
  have added := sum (by decide)
  have subtracted := (difference (by decide)).1
  exact ⟨added.result, added.flag (by decide), subtracted.result, subtracted.flag (by decide)⟩

/-- A difference is not that of the operands before when the flag register is one of them. -/
theorem difference_spoiled_by_flag :
    let machine := ((Machine.fresh (MersenneTwister.seeded 0)).setRegister 1 0x30).setRegister
      flagRegister 0x20
    (machine.execute 0x81F5).number 1 = 0x2F ∧
      (machine.execute 0x81F5).number 1 ≠
        (machine.number 1 - machine.number flagRegister) % 256 := by
  decide +kernel

end Chip8
