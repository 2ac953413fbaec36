import Chip8.Proofs.Cycle
import Chip8.Proofs.InstructionTable

/-!
This file shows that the instruction cycle follows the instruction table. Each row is decoded to one
instruction, and performing that instruction makes the assignments of the row.
-/

namespace Chip8

namespace Row

theorem apply_eq (row : Row) (opcode : Opcode) (machine : Machine) :
    row.apply opcode machine =
      Assignment.runAll machine.advance (row.effect opcode.operands machine.advance) := by
  rw [apply, assignments, Assignment.runAll_append, Assignment.runAll_advance]

/-- A row conforms when the cycle does what it says wherever it does not fault. -/
def Conforms (row : Row) : Prop :=
  ∀ (machine : Machine) (opcode : Opcode), row.Covers opcode →
    ¬ row.Faults opcode.operands machine → machine.execute opcode = row.apply opcode machine

/-- A row is decoded when one instruction belongs to its opcodes. -/
def Decodes (row : Row) (instruction : Opcode → Instruction) : Prop :=
  ∀ opcode, row.Covers opcode → Instruction.decode? opcode = some (instruction opcode)

/-- A row conforms through the instruction that its opcodes are decoded to. -/
theorem conforms_of {row : Row} (instruction : Opcode → Instruction)
    (decoded : row.Decodes instruction)
    (clear : ∀ machine opcode, ¬ row.Faults opcode.operands machine →
      (instruction opcode).fault? machine = none)
    (performed : ∀ machine opcode, ¬ row.Faults opcode.operands machine →
      machine.advance.perform (instruction opcode) =
        Assignment.runAll machine.advance (row.effect opcode.operands machine.advance)) :
    row.Conforms := by
  intro machine opcode covers unblocked
  have accepted : machine.verdict opcode = .ok (instruction opcode) := by
    rw [Machine.verdict_of_decode (decoded opcode covers), clear machine opcode unblocked]
  rw [Machine.execute_of_ok accepted, performed machine opcode unblocked, apply_eq]

/-- Most instructions never fault. -/
theorem conforms_of_plain {row : Row} (instruction : Opcode → Instruction)
    (plain : ∀ machine opcode, (instruction opcode).fault? machine = none)
    (decoded : row.Decodes instruction)
    (performed : ∀ (machine : Machine) (opcode : Opcode),
      machine.advance.perform (instruction opcode) =
        Assignment.runAll machine.advance (row.effect opcode.operands machine.advance)) :
    row.Conforms :=
  conforms_of instruction decoded (fun machine opcode _ => plain machine opcode)
    fun machine opcode _ => performed machine opcode

section Decoding

variable {row : Row} {instruction : Opcode → Instruction}

theorem decodes_of_family (family : Fin 16) (first : row.pattern.first = family.val)
    (listed : ∀ opcode, opcode.family = family →
      Instruction.decode? opcode = some (instruction opcode)) : row.Decodes instruction :=
  fun opcode covers => listed opcode (Opcode.family_eq (covers.matched.first.trans first))

theorem decodes_of_nibble (nibble : Fin 16) (first : row.pattern.first = 0x8)
    (last : row.pattern.fourth = some nibble.val)
    (listed : ∀ opcode, opcode.nibble = nibble →
      Instruction.ofArithmetic? opcode = some (instruction opcode)) : row.Decodes instruction := by
  intro opcode covers
  have family : opcode.family = 0x8 := Opcode.family_eq (covers.matched.first.trans first)
  have selected : opcode.nibble = nibble := Opcode.nibble_eq (covers.matched.fourth _ last)
  simp only [Instruction.decode?, family, listed opcode selected]

theorem byte_of_covers {opcode : Opcode} (covers : row.Covers opcode) {byte : UInt8}
    (high : row.pattern.third = some (byte.toNat / 16))
    (low : row.pattern.fourth = some (byte.toNat % 16)) : opcode.byte = byte :=
  (opcode.byte_eq_iff byte).mpr ⟨covers.matched.third _ high, covers.matched.fourth _ low⟩

theorem decodes_of_keypad (byte : UInt8) (first : row.pattern.first = 0xE)
    (high : row.pattern.third = some (byte.toNat / 16))
    (low : row.pattern.fourth = some (byte.toNat % 16))
    (listed : ∀ opcode, opcode.byte = byte →
      Instruction.ofKeypad? opcode = some (instruction opcode)) : row.Decodes instruction := by
  intro opcode covers
  have family : opcode.family = 0xE := Opcode.family_eq (covers.matched.first.trans first)
  simp only [Instruction.decode?, family, listed opcode (byte_of_covers covers high low)]

theorem decodes_of_device (byte : UInt8) (first : row.pattern.first = 0xF)
    (high : row.pattern.third = some (byte.toNat / 16))
    (low : row.pattern.fourth = some (byte.toNat % 16))
    (listed : ∀ opcode, opcode.byte = byte →
      Instruction.ofDevice? opcode = some (instruction opcode)) : row.Decodes instruction := by
  intro opcode covers
  have family : opcode.family = 0xF := Opcode.family_eq (covers.matched.first.trans first)
  simp only [Instruction.decode?, family, listed opcode (byte_of_covers covers high low)]

end Decoding

end Row

section Rows

open Assignment Instruction

theorem systemRows_conform : ∀ row ∈ systemRows, row.Conforms := by
  simp only [systemRows, List.forall_mem_cons, List.not_mem_nil, false_imp_iff, implies_true,
    and_true]
  refine ⟨?_, ?_, ?_⟩
  · apply Row.conforms_of_plain (fun _ => .ignore) (fun _ _ => rfl)
    · intro opcode covers
      have family : opcode.family = 0x0 := Opcode.family_eq covers.matched.first
      have notClear : opcode ≠ 0x00E0 := List.ne_of_not_mem_cons covers.unexcepted
      have notReturn : opcode ≠ 0x00EE :=
        List.ne_of_not_mem_cons (List.not_mem_of_not_mem_cons covers.unexcepted)
      simp only [decode?, family, ofSystem, notClear, notReturn, if_false]
    · intro machine opcode
      rfl
  · apply Row.conforms_of_plain (fun _ => .clearDisplay) (fun _ _ => rfl)
    · intro opcode covers
      obtain rfl : opcode = 0x00E0 := covers.matched.eq_value rfl
      decide
    · intro machine opcode
      rfl
  · apply Row.conforms_of (fun _ => .leaveRoutine)
    · intro opcode covers
      obtain rfl : opcode = 0x00EE := covers.matched.eq_value rfl
      decide
    · intro machine opcode filled
      simpa [fault?] using filled
    · intro machine opcode filled
      have entries : machine.advance.stack ≠ [] := filled
      obtain ⟨address, rest, stacked⟩ := List.exists_cons_of_ne_nil entries
      simp [Machine.perform, Machine.leaveRoutine, Machine.put, stacked]

theorem jumpRows_conform : ∀ row ∈ jumpRows, row.Conforms := by
  simp only [jumpRows, List.forall_mem_cons, List.not_mem_nil, false_imp_iff, implies_true,
    and_true]
  refine ⟨?_, ?_, ?_⟩
  · apply Row.conforms_of_plain (fun opcode => .jump opcode.address) (fun _ _ => rfl)
    · apply Row.decodes_of_family 0x1 rfl
      intro opcode family
      simp only [decode?, family]
    · intro machine opcode
      simp [Machine.perform]
  · apply Row.conforms_of (fun opcode => .call opcode.address)
    · apply Row.decodes_of_family 0x2 rfl
      intro opcode family
      simp only [decode?, family]
    · intro machine opcode room
      exact if_neg room
    · intro machine opcode _
      simp [Machine.perform, Machine.put]
  · apply Row.conforms_of_plain (fun opcode => .jumpFromFirst opcode.address) (fun _ _ => rfl)
    · apply Row.decodes_of_family 0xB rfl
      intro opcode family
      simp only [decode?, family]
    · intro machine opcode
      simp [Machine.perform, Machine.number]

theorem skipRows_conform : ∀ row ∈ skipRows, row.Conforms := by
  simp only [skipRows, List.forall_mem_cons, List.not_mem_nil, false_imp_iff, implies_true,
    and_true]
  refine ⟨?_, ?_, ?_, ?_, ?_, ?_⟩
  · apply Row.conforms_of_plain (fun opcode => .skipIfByte opcode.x opcode.byte) (fun _ _ => rfl)
    · apply Row.decodes_of_family 0x3 rfl
      intro opcode family
      simp only [decode?, family]
    · intro machine opcode
      simp only [Machine.perform, Machine.number, runAll_skip, Opcode.x_operands,
        Opcode.kk_operands, decide_number_eq]
  · apply Row.conforms_of_plain (fun opcode => .skipUnlessByte opcode.x opcode.byte)
      (fun _ _ => rfl)
    · apply Row.decodes_of_family 0x4 rfl
      intro opcode family
      simp only [decode?, family]
    · intro machine opcode
      simp only [Machine.perform, Machine.number, runAll_skip, Opcode.x_operands,
        Opcode.kk_operands, ne_eq, decide_not, decide_number_eq, bne]
  · apply Row.conforms_of_plain (fun opcode => .skipIfEqual opcode.x opcode.y) (fun _ _ => rfl)
    · apply Row.decodes_of_family 0x5 rfl
      intro opcode family
      simp only [decode?, family]
    · intro machine opcode
      simp only [Machine.perform, Machine.number, runAll_skip, Opcode.x_operands,
        Opcode.y_operands, decide_number_eq]
  · apply Row.conforms_of_plain (fun opcode => .skipUnlessEqual opcode.x opcode.y) (fun _ _ => rfl)
    · apply Row.decodes_of_family 0x9 rfl
      intro opcode family
      simp only [decode?, family]
    · intro machine opcode
      simp only [Machine.perform, Machine.number, runAll_skip, Opcode.x_operands,
        Opcode.y_operands, ne_eq, decide_not, decide_number_eq, bne]
  · apply Row.conforms_of_plain (fun opcode => .skipIfPressed opcode.x) (fun _ _ => rfl)
    · apply Row.decodes_of_keypad 0x9E rfl rfl rfl
      intro opcode byte
      simp only [ofKeypad?, byte]
    · intro machine opcode
      simp [Machine.perform, runAll_skip, Keypad.isPressed]
  · apply Row.conforms_of_plain (fun opcode => .skipUnlessPressed opcode.x) (fun _ _ => rfl)
    · apply Row.decodes_of_keypad 0xA1 rfl rfl rfl
      intro opcode byte
      simp only [ofKeypad?, byte]
    · intro machine opcode
      simp [Machine.perform, runAll_skip, Keypad.isPressed]

theorem constantRows_conform : ∀ row ∈ constantRows, row.Conforms := by
  simp only [constantRows, List.forall_mem_cons, List.not_mem_nil, false_imp_iff, implies_true,
    and_true]
  refine ⟨?_, ?_, ?_, ?_⟩
  · apply Row.conforms_of_plain (fun opcode => .setByte opcode.x opcode.byte) (fun _ _ => rfl)
    · apply Row.decodes_of_family 0x6 rfl
      intro opcode family
      simp only [decode?, family]
    · intro machine opcode
      simp [Machine.perform]
  · apply Row.conforms_of_plain (fun opcode => .addByte opcode.x opcode.byte) (fun _ _ => rfl)
    · apply Row.decodes_of_family 0x7 rfl
      intro opcode family
      simp only [decode?, family]
    · intro machine opcode
      simp [Machine.perform, Machine.number]
  · apply Row.conforms_of_plain (fun opcode => .setIndex opcode.address) (fun _ _ => rfl)
    · apply Row.decodes_of_family 0xA rfl
      intro opcode family
      simp only [decode?, family]
    · intro machine opcode
      simp [Machine.perform]
  · apply Row.conforms_of_plain (fun opcode => .random opcode.x opcode.byte) (fun _ _ => rfl)
    · apply Row.decodes_of_family 0xC rfl
      intro opcode family
      simp only [decode?, family]
    · intro machine opcode
      simp [Machine.perform, Machine.random, MersenneTwister.nextByte, Machine.put,
        Machine.setRegister, ← byteOfNat_random]

theorem arithmeticRows_conform : ∀ row ∈ arithmeticRows, row.Conforms := by
  simp only [arithmeticRows, List.forall_mem_cons, List.not_mem_nil, false_imp_iff, implies_true,
    and_true]
  refine ⟨?_, ?_, ?_, ?_, ?_, ?_, ?_, ?_, ?_⟩
  · apply Row.conforms_of_plain (fun opcode => .copy opcode.x opcode.y) (fun _ _ => rfl)
    · apply Row.decodes_of_nibble 0x0 rfl rfl
      intro opcode nibble
      simp only [ofArithmetic?, nibble]
    · intro machine opcode
      simp [Machine.perform, Machine.number]
  · apply Row.conforms_of_plain (fun opcode => .bitOr opcode.x opcode.y) (fun _ _ => rfl)
    · apply Row.decodes_of_nibble 0x1 rfl rfl
      intro opcode nibble
      simp only [ofArithmetic?, nibble]
    · intro machine opcode
      simp [Machine.perform, combine]
  · apply Row.conforms_of_plain (fun opcode => .bitAnd opcode.x opcode.y) (fun _ _ => rfl)
    · apply Row.decodes_of_nibble 0x2 rfl rfl
      intro opcode nibble
      simp only [ofArithmetic?, nibble]
    · intro machine opcode
      simp [Machine.perform, combine]
  · apply Row.conforms_of_plain (fun opcode => .bitXor opcode.x opcode.y) (fun _ _ => rfl)
    · apply Row.decodes_of_nibble 0x3 rfl rfl
      intro opcode nibble
      simp only [ofArithmetic?, nibble]
    · intro machine opcode
      simp [Machine.perform, combine]
  · apply Row.conforms_of_plain (fun opcode => .add opcode.x opcode.y) (fun _ _ => rfl)
    · apply Row.decodes_of_nibble 0x4 rfl rfl
      intro opcode nibble
      simp only [ofArithmetic?, nibble]
    · intro machine opcode
      simp only [Machine.perform, Machine.add, Machine.number, runAll_cons, runAll_nil, run_flag,
        run_register, Opcode.x_operands, Opcode.y_operands]
      norm_cast
      rw [byteOfInt_natCast]
  · apply Row.conforms_of_plain (fun opcode => .subtract opcode.x opcode.y) (fun _ _ => rfl)
    · apply Row.decodes_of_nibble 0x5 rfl rfl
      intro opcode nibble
      simp only [ofArithmetic?, nibble]
    · intro machine opcode
      simp [Machine.perform, Machine.subtract, Machine.number, byteOfInt_sub, UInt8.lt_iff_toNat_lt]
  · apply Row.conforms_of_plain (fun opcode => .shiftRight opcode.x) (fun _ _ => rfl)
    · apply Row.decodes_of_nibble 0x6 rfl rfl
      intro opcode nibble
      simp only [ofArithmetic?, nibble]
    · intro machine opcode
      simp [Machine.perform, Machine.shiftRight, Machine.number, byteOfInt_lowBit, byteOfInt_half]
  · apply Row.conforms_of_plain (fun opcode => .subtractFrom opcode.x opcode.y) (fun _ _ => rfl)
    · apply Row.decodes_of_nibble 0x7 rfl rfl
      intro opcode nibble
      simp only [ofArithmetic?, nibble]
    · intro machine opcode
      simp [Machine.perform, Machine.subtractFrom, Machine.number, byteOfInt_sub,
        UInt8.lt_iff_toNat_lt]
  · apply Row.conforms_of_plain (fun opcode => .shiftLeft opcode.x) (fun _ _ => rfl)
    · apply Row.decodes_of_nibble 0xE rfl rfl
      intro opcode nibble
      simp only [ofArithmetic?, nibble]
    · intro machine opcode
      simp only [Machine.perform, Machine.shiftLeft, Machine.number, runAll_cons, runAll_nil,
        run_register, Opcode.x_operands, byteOfInt_highBit, byteOfInt_double]

theorem deviceRows_conform : ∀ row ∈ deviceRows, row.Conforms := by
  simp only [deviceRows, List.forall_mem_cons, List.not_mem_nil, false_imp_iff, implies_true,
    and_true]
  refine ⟨?_, ?_, ?_, ?_, ?_, ?_⟩
  · apply Row.conforms_of_plain (fun opcode => .readDelay opcode.x) (fun _ _ => rfl)
    · apply Row.decodes_of_device 0x07 rfl rfl rfl
      intro opcode byte
      simp only [ofDevice?, byte]
    · intro machine opcode
      simp [Machine.perform]
  · apply Row.conforms_of_plain (fun opcode => .awaitKey opcode.x) (fun _ _ => rfl)
    · apply Row.decodes_of_device 0x0A rfl rfl rfl
      intro opcode byte
      simp only [ofDevice?, byte]
    · intro machine opcode
      simp [Machine.perform, Machine.put, Register.toByte]
  · apply Row.conforms_of_plain (fun opcode => .setDelay opcode.x) (fun _ _ => rfl)
    · apply Row.decodes_of_device 0x15 rfl rfl rfl
      intro opcode byte
      simp only [ofDevice?, byte]
    · intro machine opcode
      simp [Machine.perform, Machine.put]
  · apply Row.conforms_of_plain (fun opcode => .setSound opcode.x) (fun _ _ => rfl)
    · apply Row.decodes_of_device 0x18 rfl rfl rfl
      intro opcode byte
      simp only [ofDevice?, byte]
    · intro machine opcode
      simp [Machine.perform, Machine.put]
  · apply Row.conforms_of_plain (fun opcode => .advanceIndex opcode.x) (fun _ _ => rfl)
    · apply Row.decodes_of_device 0x1E rfl rfl rfl
      intro opcode byte
      simp only [ofDevice?, byte]
    · intro machine opcode
      simp [Machine.perform, Machine.number]
  · apply Row.conforms_of_plain (fun opcode => .pointToGlyph opcode.x) (fun _ _ => rfl)
    · apply Row.decodes_of_device 0x29 rfl rfl rfl
      intro opcode byte
      simp only [ofDevice?, byte]
    · intro machine opcode
      have height : UInt16.ofInt 5 = 5 := rfl
      simp [Machine.perform, Machine.number, glyphHeight, height]

theorem memoryRows_conform : ∀ row ∈ memoryRows, row.Conforms := by
  simp only [memoryRows, List.forall_mem_cons, List.not_mem_nil, false_imp_iff, implies_true,
    and_true]
  refine ⟨?_, ?_, ?_⟩
  · apply Row.conforms_of (fun opcode => .storeDecimal opcode.x)
    · apply Row.decodes_of_device 0x33 rfl rfl rfl
      intro opcode byte
      simp only [ofDevice?, byte]
    · intro machine opcode room
      exact if_pos (Nat.le_of_not_lt room)
    · intro machine opcode _
      rw [← opcode.x_operands]
      exact (runAll_storeDecimal machine.advance opcode.operands.x).symm
  · apply Row.conforms_of (fun opcode => .storeRegisters opcode.x)
    · apply Row.decodes_of_device 0x55 rfl rfl rfl
      intro opcode byte
      simp only [ofDevice?, byte]
    · intro machine opcode room
      rw [← opcode.x_operands]
      exact if_pos (Nat.le_of_not_lt room)
    · intro machine opcode room
      rw [← opcode.x_operands]
      exact (runAll_storeRegisters machine.advance opcode.operands.x (Nat.le_of_not_lt room)).symm
  · apply Row.conforms_of (fun opcode => .loadRegisters opcode.x)
    · apply Row.decodes_of_device 0x65 rfl rfl rfl
      intro opcode byte
      simp only [ofDevice?, byte]
    · intro machine opcode room
      rw [← opcode.x_operands]
      exact if_pos (Nat.le_of_not_lt room)
    · intro machine opcode _
      rw [← opcode.x_operands]
      exact (runAll_loadRegisters machine.advance opcode.operands.x).symm

theorem instructionTable_conforms : ∀ row ∈ instructionTable, row.Conforms := by
  simp only [instructionTable, List.forall_mem_append]
  exact ⟨⟨⟨⟨⟨⟨systemRows_conform, jumpRows_conform⟩, skipRows_conform⟩, constantRows_conform⟩,
    arithmeticRows_conform⟩, deviceRows_conform⟩, memoryRows_conform⟩

end Rows

section Places

open Assignment

namespace Row

variable {row : Row} (opcode : Opcode) (machine : Machine)

/-- Bytes are only assigned inside the memory, wherever the row does not fault. -/
def StaysInside (row : Row) : Prop :=
  ∀ (operands : Operands) (machine : Machine), ¬ row.Faults operands machine →
    ∀ assignment ∈ row.effect operands machine.advance, assignment.place.Inside

theorem StaysInside.inside_assignments (staysInside : row.StaysInside)
    (clear : ¬ row.Faults opcode.operands machine) :
    ∀ assignment ∈ row.assignments opcode machine, assignment.place.Inside := by
  simp only [assignments, List.forall_mem_append, runAll_advance]
  refine ⟨?_, staysInside opcode.operands machine clear⟩
  simp [advance, pc, Place.Inside]

/-- The rows `Fx33`, `Fx55` and `Fx65` move bytes, which are read back where they belong. -/
structure MovesBytes (row : Row) (x : Register) (before after : Machine) : Prop where
  decimal : row.pattern = ⟨0xF, none, some 0x3, some 0x3⟩ →
    let number := (before.register x).toNat
    [0, 1, 2].map (fun offset => (after.memory.read (before.index.toNat + offset)).toNat) =
      [number / 100, number / 10 % 10, number % 10]
  stored : row.pattern = ⟨0xF, none, some 0x5, some 0x5⟩ → ∀ target ≤ x,
    after.memory.read (before.index.toNat + target.val) = before.register target
  loaded : row.pattern = ⟨0xF, none, some 0x6, some 0x5⟩ → ∀ target ≤ x,
    after.register target = before.memory.read (before.index.toNat + target.val)

end Row

theorem index_advance (machine : Machine) : machine.advance.index = machine.index := rfl

theorem inside_skip (condition : Bool) :
    ∀ assignment ∈ skip condition, assignment.place.Inside := by
  cases condition <;> simp [skip, pc, Place.Inside]

theorem memoryRows_stayInside : ∀ row ∈ memoryRows, row.StaysInside := by
  simp only [memoryRows, List.forall_mem_cons, List.not_mem_nil, false_imp_iff, implies_true,
    and_true]
  refine ⟨?_, ?_, ?_⟩
  · intro operands machine room
    simp only [memory, List.forall_mem_cons, Place.Inside, index_advance]
    exact ⟨by omega, by omega, by omega, List.forall_mem_nil _⟩
  · intro operands machine room assignment member
    obtain ⟨target, listed, rfl⟩ := List.mem_map.mp member
    have below : target.val ≤ operands.x.val := mem_registersUpTo.mp listed
    simp only [store, memory, Place.Inside, index_advance]
    omega
  · intro operands machine room assignment member
    obtain ⟨target, _, rfl⟩ := List.mem_map.mp member
    trivial

theorem instructionTable_staysInside : ∀ row ∈ instructionTable, row.StaysInside := by
  simp only [instructionTable, List.forall_mem_append]
  refine ⟨⟨⟨⟨⟨⟨?system, ?jump⟩, ?skip⟩, ?constant⟩, ?arithmetic⟩, ?device⟩, memoryRows_stayInside⟩
  case skip =>
    simp only [skipRows, List.forall_mem_cons, List.not_mem_nil, false_imp_iff, implies_true,
      and_true]
    refine ⟨?_, ?_, ?_, ?_, ?_, ?_⟩ <;> exact fun _ _ _ => inside_skip _
  all_goals
    simp [systemRows, jumpRows, constantRows, arithmeticRows, deviceRows, Row.StaysInside,
      Place.Inside, register, index, pc, flag, combine]

theorem read_storeDecimal (machine : Machine) (x : Register)
    (room : machine.index.toNat + 3 ≤ Memory.size) :
    let number := (machine.register x).toNat
    [0, 1, 2].map (fun offset =>
        ((machine.storeDecimal x).memory.read (machine.index.toNat + offset)).toNat) =
      [number / 100, number / 10 % 10, number % 10] := by
  have read (offset : Nat) (within : offset < 3) :=
    machine.memory.read_writeAll_inside machine.index.toNat offset
      [machine.register x / 100, machine.register x / 10 % 10, machine.register x % 10] within room
  simp only [List.map_cons, List.map_nil, Machine.storeDecimal, read 0 (by decide),
    read 1 (by decide), read 2 (by decide)]
  rfl

theorem memoryRows_moveBytes : ∀ row ∈ memoryRows, ∀ (opcode : Opcode) (machine : Machine),
    ¬ row.Faults opcode.operands machine →
      row.MovesBytes opcode.operands.x machine (row.apply opcode machine) := by
  simp only [memoryRows, List.forall_mem_cons, List.not_mem_nil, false_imp_iff, implies_true,
    and_true]
  refine ⟨?_, ?_, ?_⟩
  · intro opcode machine room
    refine ⟨?decimal, nofun, nofun⟩
    intro _
    rw [Row.apply_eq, runAll_storeDecimal]
    exact read_storeDecimal machine.advance opcode.operands.x (Nat.le_of_not_lt room)
  · intro opcode machine room
    refine ⟨nofun, ?stored, nofun⟩
    intro _ target within
    have below : target.val ≤ opcode.operands.x.val := within
    have inside : machine.index.toNat + target.val < 4096 := by omega
    rw [Row.apply_eq]
    exact content_runAll_store machine.advance opcode.operands.x _ within inside
  · intro opcode machine room
    refine ⟨nofun, nofun, ?loaded⟩
    intro _ target within
    rw [Row.apply_eq, runAll_loadRegisters, Machine.register_loadRegisters, if_pos within]
    rfl

theorem instructionTable_movesBytes : ∀ row ∈ instructionTable,
    ∀ (opcode : Opcode) (machine : Machine), ¬ row.Faults opcode.operands machine →
      row.MovesBytes opcode.operands.x machine (row.apply opcode machine) := by
  rw [instructionTable, List.forall_mem_append]
  refine ⟨?others, memoryRows_moveBytes⟩
  have patterns : ∀ row ∈ systemRows ++ jumpRows ++ skipRows ++ constantRows ++ arithmeticRows ++
      deviceRows, row.pattern ∉ memoryRows.map Row.pattern := by
    simp [systemRows, jumpRows, skipRows, constantRows, arithmeticRows, deviceRows, memoryRows]
  intro row other opcode machine _
  have apart := patterns row other
  simp only [memoryRows, List.map_cons, List.map_nil, List.mem_cons, List.not_mem_nil, or_false,
    not_or] at apart
  exact ⟨fun same => absurd same apart.1, fun same => absurd same apart.2.1,
    fun same => absurd same apart.2.2⟩

end Places

namespace Machine

/-- An opcode is executed as its row of the table says, unless the row faults. No other machine is left
by making the assignments of the row one after another. The bytes that move are read back, the latest
address is remembered, and every place that the row does not name is left alone. -/
theorem execute_follows_table (machine : Machine) (opcode : Opcode) (row : Row)
    (listed : row ∈ instructionTable) (covers : row.Covers opcode)
    (clear : ¬ row.Faults opcode.operands machine) :
    machine.execute opcode = row.apply opcode machine ∧
      (∀ after, Assignment.MakesAll (row.assignments opcode machine) machine after ↔
        after = machine.execute opcode) ∧
      row.MovesBytes opcode.operands.x machine (machine.execute opcode) ∧
      (machine.execute opcode).faultAddress = machine.pc ∧
      ∀ place, place ∉ row.places opcode machine →
        (machine.execute opcode).content place = machine.content place := by
  have executed : machine.execute opcode = row.apply opcode machine :=
    instructionTable_conforms row listed machine opcode covers clear
  refine ⟨executed, ?makes, ?moves, machine.faultAddress_execute opcode, ?kept⟩
  case makes =>
    have made : Assignment.MakesAll (row.assignments opcode machine) machine
        (row.apply opcode machine) := by
      apply Assignment.makesAll_runAll
      exact (instructionTable_staysInside row listed).inside_assignments opcode machine clear
    intro after
    rw [executed]
    constructor
    · exact fun other => other.unique made
    · rintro rfl
      exact made
  case moves =>
    rw [executed]
    exact instructionTable_movesBytes row listed opcode machine clear
  case kept =>
    intro place outside
    rw [executed]
    exact Assignment.content_runAll machine (row.assignments opcode machine) outside

/-- The flag is assigned before the difference is taken, also when it is an operand. The digits of a
register and the registers themselves are stored from the index on. -/
theorem execute_follows_table_on_flag_and_memory :
    let registered := (((fresh (MersenneTwister.seeded 0)).setRegister 1 0x30).setRegister 2
      234).setRegister flagRegister 0x20
    let machine := { registered with index := 0x300 }
    ((machine.execute 0x8F15).register flagRegister = 0xD0 ∧
      (machine.execute 0x8F15).faultAddress = 0x200 ∧
      (machine.execute 0x8F15).content (.register 1) = 0x30) ∧
    ([0, 1, 2].map (fun offset =>
        ((machine.execute 0xF233).memory.read (0x300 + offset)).toNat) = [2, 3, 4] ∧
      (machine.execute 0xF233).memory.read 0x303 = 0) ∧
    [0x300, 0x301, 0x302].map (machine.execute 0xF255).memory.read = [0, 0x30, 234] ∧
      (machine.execute 0xF255).memory.read 0x303 = 0 := by
  intro registered machine
  refine ⟨?difference, ?decimal, ?registers⟩
  case difference =>
    obtain ⟨executed, _, _, remembered, kept⟩ := execute_follows_table machine 0x8F15
      (instructionTable.get ⟨21, by decide⟩) (List.get_mem _ _) (by decide) id
    refine ⟨?_, remembered, kept (.register 1) (by decide)⟩
    rw [executed]
    decide
  case decimal =>
    obtain ⟨_, _, moved, _, kept⟩ := execute_follows_table machine 0xF233
      (instructionTable.get ⟨31, by decide⟩) (List.get_mem _ _) (by decide)
      (show ¬ 4096 < 0x300 + 3 by decide)
    exact ⟨(moved.decimal rfl).trans (by decide),
      (kept (.memory 0x303) (by decide)).trans (Memory.read_zeroed 0x303)⟩
  case registers =>
    obtain ⟨_, _, moved, _, kept⟩ := execute_follows_table machine 0xF255
      (instructionTable.get ⟨32, by decide⟩) (List.get_mem _ _) (by decide)
      (show ¬ 4096 < 0x300 + 3 by decide)
    have stored := moved.stored rfl
    refine ⟨?_, (kept (.memory 0x303) (by decide)).trans (Memory.read_zeroed 0x303)⟩
    have bytes : [0x300, 0x301, 0x302].map (machine.execute 0xF255).memory.read =
        [machine.register 0, machine.register 1, machine.register 2] := by
      simp only [List.map_cons, List.map_nil, List.cons.injEq, and_true]
      exact ⟨stored 0 (by decide), stored 1 (by decide), stored 2 (by decide)⟩
    rw [bytes]
    decide

end Machine

end Chip8
