import Chip8.Proofs.Cycle
import Chip8.Proofs.Digits

/-!
This file holds the reasons for which an opcode is refused. Each fault has a condition on the digits
of the opcode, on the stack and on the index.
-/

namespace Chip8

/-- Four kinds of opcodes reach into memory at the index: `Dxyn`, `Fx33`, `Fx55` and `Fx65`. -/
def Opcode.reach? (opcode : Opcode) : Option Nat :=
  if opcode.digit 3 = 0xD then some (opcode.digit 0)
  else if opcode.digit 3 = 0xF ∧ opcode.digit 1 = 3 ∧ opcode.digit 0 = 3 then some 3
  else if opcode.digit 3 = 0xF ∧ opcode.digit 1 = 5 ∧ opcode.digit 0 = 5 then
    some (opcode.digit 2 + 1)
  else if opcode.digit 3 = 0xF ∧ opcode.digit 1 = 6 ∧ opcode.digit 0 = 5 then
    some (opcode.digit 2 + 1)
  else none

namespace Instruction

theorem fault?_eq_underflow {instruction : Instruction} {machine : Machine} :
    instruction.fault? machine = some .stackUnderflow ↔
      instruction = .leaveRoutine ∧ machine.stack = [] := by
  cases instruction <;> simp [fault?, span?]

theorem fault?_eq_overflow {instruction : Instruction} {machine : Machine} :
    instruction.fault? machine = some .stackOverflow ↔
      (∃ target, instruction = .call target) ∧ stackLimit ≤ machine.stack.length := by
  cases instruction <;> simp [fault?, span?]

theorem fault?_eq_range {instruction : Instruction} {machine : Machine} :
    instruction.fault? machine = some .memoryOutOfRange ↔
      ∃ span, instruction.span? = some span ∧ Memory.size < machine.index.toNat + span := by
  cases instruction <;> simp [fault?, span?]

theorem fault?_ne_unknown (instruction : Instruction) (machine : Machine) :
    instruction.fault? machine ≠ some .unknownOpcode := by
  cases instruction <;> simp [fault?, span?]

theorem decode?_eq_leaveRoutine {opcode : Opcode} :
    decode? opcode = some .leaveRoutine ↔ opcode = 0x00EE := by
  constructor
  · intro decoded
    unfold decode? at decoded
    split at decoded
    · unfold ofSystem at decoded
      split at decoded <;> simp_all
    all_goals simp_all [ofArithmetic?, ofKeypad?, ofDevice?]
    all_goals (split at decoded <;> simp_all)
  · rintro rfl
    decide

theorem decode?_eq_call {opcode : Opcode} :
    (∃ target, decode? opcode = some (.call target)) ↔ opcode.digit 3 = 2 := by
  constructor
  · rintro ⟨target, decoded⟩
    rw [← opcode.family_val]
    unfold decode? at decoded
    split at decoded
    · unfold ofSystem at decoded
      split at decoded
      · simp at decoded
      · split at decoded <;> simp at decoded
    all_goals simp_all [ofArithmetic?, ofKeypad?, ofDevice?]
    all_goals (split at decoded <;> simp_all)
  · intro called
    have family : opcode.family = 2 := Opcode.family_eq called
    exact ⟨opcode.address, by simp only [decode?, family]⟩

theorem span?_ofArithmetic? (opcode : Opcode) : (ofArithmetic? opcode).bind span? = none := by
  unfold ofArithmetic?
  split <;> rfl

theorem span?_ofKeypad? (opcode : Opcode) : (ofKeypad? opcode).bind span? = none := by
  unfold ofKeypad?
  split <;> rfl

theorem span?_ofDevice? {opcode : Opcode} (device : opcode.digit 3 = 0xF) :
    (ofDevice? opcode).bind span? = opcode.reach? := by
  have decimal : opcode.digit 1 = 3 ∧ opcode.digit 0 = 3 ↔ opcode.byte = 0x33 :=
    (opcode.byte_eq_iff 0x33).symm
  have stored : opcode.digit 1 = 5 ∧ opcode.digit 0 = 5 ↔ opcode.byte = 0x55 :=
    (opcode.byte_eq_iff 0x55).symm
  have loaded : opcode.digit 1 = 6 ∧ opcode.digit 0 = 5 ↔ opcode.byte = 0x65 :=
    (opcode.byte_eq_iff 0x65).symm
  simp only [Opcode.reach?, device, true_and, decimal, stored, loaded, ← opcode.x_val]
  unfold ofDevice?
  split <;> simp_all [span?]

/-- Only two families reach into memory. -/
theorem span?_decode?_of_plain {opcode : Opcode} (notDraw : opcode.digit 3 ≠ 0xD)
    (notDevice : opcode.digit 3 ≠ 0xF) : (decode? opcode).bind span? = none := by
  have noDraw : opcode.family ≠ 0xD := fun same =>
    notDraw (opcode.family_val.symm.trans (congrArg Fin.val same))
  have noDevice : opcode.family ≠ 0xF := fun same =>
    notDevice (opcode.family_val.symm.trans (congrArg Fin.val same))
  unfold decode?
  split
  case h_1 =>
    unfold ofSystem
    repeat' split
    all_goals rfl
  case h_9 => exact span?_ofArithmetic? opcode
  case h_15 => exact span?_ofKeypad? opcode
  case h_16 => grind
  all_goals simp_all [span?]

/-- The instructions with a span are those of the opcodes that reach into memory. -/
theorem span?_decode? (opcode : Opcode) : (decode? opcode).bind span? = opcode.reach? := by
  by_cases draws : opcode.digit 3 = 0xD
  · have family : opcode.family = 0xD := Opcode.family_eq draws
    simp only [decode?, family, Opcode.reach?, draws, if_true]
    exact congrArg some opcode.nibble_val
  · by_cases device : opcode.digit 3 = 0xF
    · have family : opcode.family = 0xF := Opcode.family_eq device
      simp only [decode?, family]
      exact span?_ofDevice? device
    · have plain : opcode.reach? = none := by simp [Opcode.reach?, draws, device]
      rw [plain]
      exact span?_decode?_of_plain draws device

end Instruction

namespace Machine

variable {machine : Machine} {opcode : Opcode}

theorem verdict_eq_error {fault : Fault} :
    machine.verdict opcode = .error fault ↔
      (Instruction.decode? opcode = none ∧ fault = .unknownOpcode) ∨
        ∃ instruction, Instruction.decode? opcode = some instruction ∧
          instruction.fault? machine = some fault := by
  cases decoded : Instruction.decode? opcode with
  | none => simp [verdict, decoded, eq_comm]
  | some instruction =>
      rw [verdict_of_decode decoded]
      cases found : instruction.fault? machine <;> simp [found]

theorem verdict_eq_unknown :
    machine.verdict opcode = .error .unknownOpcode ↔ Instruction.decode? opcode = none := by
  rw [verdict_eq_error]
  simp [Instruction.fault?_ne_unknown]

theorem verdict_eq_underflow :
    machine.verdict opcode = .error .stackUnderflow ↔ opcode = 0x00EE ∧ machine.stack = [] := by
  rw [verdict_eq_error]
  simp only [reduceCtorEq, and_false, false_or, Instruction.fault?_eq_underflow]
  constructor
  · rintro ⟨instruction, decoded, rfl, empty⟩
    exact ⟨Instruction.decode?_eq_leaveRoutine.mp decoded, empty⟩
  · rintro ⟨returns, empty⟩
    exact ⟨.leaveRoutine, Instruction.decode?_eq_leaveRoutine.mpr returns, rfl, empty⟩

theorem verdict_eq_overflow :
    machine.verdict opcode = .error .stackOverflow ↔
      opcode.digit 3 = 2 ∧ 16 ≤ machine.stack.length := by
  rw [verdict_eq_error]
  simp only [reduceCtorEq, and_false, false_or, Instruction.fault?_eq_overflow]
  constructor
  · rintro ⟨instruction, decoded, ⟨target, rfl⟩, full⟩
    exact ⟨Instruction.decode?_eq_call.mp ⟨target, decoded⟩, full⟩
  · rintro ⟨called, full⟩
    obtain ⟨target, decoded⟩ := Instruction.decode?_eq_call.mpr called
    exact ⟨.call target, decoded, ⟨target, rfl⟩, full⟩

theorem verdict_eq_range :
    machine.verdict opcode = .error .memoryOutOfRange ↔
      ∃ length, opcode.reach? = some length ∧ 4096 < machine.index.toNat + length := by
  rw [verdict_eq_error, ← Instruction.span?_decode? opcode]
  simp only [reduceCtorEq, and_false, false_or, Instruction.fault?_eq_range]
  constructor
  · rintro ⟨instruction, decoded, length, reaches, above⟩
    exact ⟨length, by rw [decoded]; exact reaches, above⟩
  · rintro ⟨length, reaches, above⟩
    obtain ⟨instruction, decoded, reaches⟩ := Option.bind_eq_some_iff.mp reaches
    exact ⟨instruction, decoded, length, reaches, above⟩

end Machine

end Chip8
