import Chip8.Proofs.Verdict

/-!
This file holds the refusal of an instruction. A refused instruction leaves only its fault behind.
The range of a block is checked before the block is touched, and an empty block is checked too.
-/

namespace Chip8

/-- An empty block belongs to a sprite without rows. -/
theorem Opcode.reach?_eq_some_zero {opcode : Opcode} :
    opcode.reach? = some 0 ↔ opcode.digit 3 = 0xD ∧ opcode.digit 0 = 0 := by
  unfold reach?
  split
  · rename_i draws
    simp [draws]
  · rename_i notDraw
    repeat' split
    all_goals simp [notDraw]

namespace Machine

/-- An opcode is refused because it is unknown, because the stack is empty or full, or because its
block ends above the memory. -/
inductive Refuses (machine : Machine) (opcode : Opcode) : Fault → Prop
  | unknown (foreign : Instruction.decode? opcode = none) : Refuses machine opcode .unknownOpcode
  | underflow (returns : opcode = 0x00EE) (empty : machine.stack = []) :
      Refuses machine opcode .stackUnderflow
  | overflow (calls : opcode.digit 3 = 2) (full : 16 ≤ machine.stack.length) :
      Refuses machine opcode .stackOverflow
  | range {length : Nat} (reaches : opcode.reach? = some length)
      (above : 4096 < machine.index.toNat + length) : Refuses machine opcode .memoryOutOfRange

/-- A fault is raised by an instruction when it halts a machine that has not halted. -/
def Raises (machine : Machine) (opcode : Opcode) : Prop :=
  ({ machine with halted := false }.execute opcode).halted = true

section Opcodes

variable {machine : Machine} {opcode : Opcode} {fault : Fault}

theorem refuses_iff : machine.Refuses opcode fault ↔ machine.verdict opcode = .error fault := by
  constructor
  · intro refused
    cases refused with
    | unknown foreign => exact verdict_eq_unknown.mpr foreign
    | underflow returns empty => exact verdict_eq_underflow.mpr ⟨returns, empty⟩
    | overflow calls full => exact verdict_eq_overflow.mpr ⟨calls, full⟩
    | range reaches above => exact verdict_eq_range.mpr ⟨_, reaches, above⟩
  · intro judged
    cases fault with
    | unknownOpcode => exact .unknown (verdict_eq_unknown.mp judged)
    | stackUnderflow =>
        obtain ⟨returns, empty⟩ := verdict_eq_underflow.mp judged
        exact .underflow returns empty
    | stackOverflow =>
        obtain ⟨calls, full⟩ := verdict_eq_overflow.mp judged
        exact .overflow calls full
    | memoryOutOfRange =>
        obtain ⟨length, reaches, above⟩ := verdict_eq_range.mp judged
        exact .range reaches above

theorem raises_iff : machine.Raises opcode ↔ ∃ fault, machine.Refuses opcode fault := by
  have judges : { machine with halted := false }.verdict opcode = machine.verdict opcode :=
    verdict_congr rfl rfl opcode
  simp only [refuses_iff, ← judges]
  unfold Raises
  cases judged : { machine with halted := false }.verdict opcode with
  | error fault =>
      rw [execute_of_error judged]
      exact ⟨fun _ => ⟨fault, rfl⟩, fun _ => rfl⟩
  | ok instruction =>
      rw [execute_of_ok judged, halted_perform]
      simp [advance]

/-- Nothing is written before an instruction is refused. -/
theorem execute_of_refuses (refused : machine.Refuses opcode fault) :
    machine.execute opcode =
      { machine with
        pc := machine.pc + 2, faultAddress := machine.pc, halted := true, fault := some fault,
        faultOpcode := opcode } :=
  execute_of_error (refuses_iff.mp refused)

end Opcodes

section Touching

variable (machine : Machine)

/-- The block of an opcode starts at the index. -/
def block (opcode : Opcode) : List Nat :=
  (List.range (opcode.reach?.getD 0)).map fun place => machine.index.toNat + place

/-- A step touches the two bytes of its word, and the block of a word that it could fetch. -/
def touched : List Nat :=
  [machine.pc.toNat, machine.pc.toNat + 1] ++
    if machine.pc.toNat + 2 ≤ 4096 then machine.block machine.fetched else []

theorem exists_above_block {opcode : Opcode} {length : Nat}
    (reaches : opcode.reach? = some length) :
    (∃ address ∈ machine.block opcode, 4096 ≤ address) ↔
      0 < length ∧ 4096 < machine.index.toNat + length := by
  simp only [block, reaches, Option.getD_some, List.mem_map, List.mem_range]
  constructor
  · rintro ⟨address, ⟨place, inside, rfl⟩, above⟩
    omega
  · rintro ⟨filled, above⟩
    exact ⟨machine.index.toNat + (length - 1), ⟨length - 1, by omega, rfl⟩, by omega⟩

/-- A block is refused when it has a byte above the memory, or when it is empty and starts there. -/
theorem refuses_range_iff {opcode : Opcode} :
    machine.Refuses opcode .memoryOutOfRange ↔
      (∃ address ∈ machine.block opcode, 4096 ≤ address) ∨
        opcode.digit 3 = 0xD ∧ opcode.digit 0 = 0 ∧ 4096 < machine.index.toNat := by
  rw [refuses_iff, verdict_eq_range, ← and_assoc, ← Opcode.reach?_eq_some_zero]
  cases reaches : opcode.reach? with
  | none => simp [block, reaches]
  | some length =>
      rw [machine.exists_above_block reaches]
      simp only [Option.some.injEq, exists_eq_left']
      omega

theorem exists_above_touched :
    (∃ address ∈ machine.touched, 4096 ≤ address) ↔
      4096 < machine.pc.toNat + 2 ∨
        machine.pc.toNat + 2 ≤ 4096 ∧
          ∃ address ∈ machine.block machine.fetched, 4096 ≤ address := by
  unfold touched
  constructor
  · rintro ⟨address, member, above⟩
    rcases List.mem_append.mp member with word | block
    · simp only [List.mem_cons, List.not_mem_nil, or_false] at word
      omega
    · split at block
      · rename_i inside
        exact .inr ⟨inside, address, block, above⟩
      · exact absurd block List.not_mem_nil
  · rintro (above | ⟨inside, address, member, above⟩)
    · exact ⟨machine.pc.toNat + 1, by simp, by omega⟩
    · rw [if_pos inside]
      exact ⟨address, List.mem_append_right _ member, above⟩

theorem step_range_iff (running : machine.running = true) :
    (machine.step.halted = true ∧ machine.step.fault = some .memoryOutOfRange) ↔
      4096 < machine.pc.toNat + 2 ∨
        machine.pc.toNat + 2 ≤ 4096 ∧ machine.Refuses machine.fetched .memoryOutOfRange := by
  rw [refuses_iff]
  by_cases inside : machine.pc.toNat + 2 ≤ 4096
  · have within : ¬ 4096 < machine.pc.toNat + 2 := Nat.not_lt.mpr inside
    cases judged : machine.verdict machine.fetched with
    | error fault =>
        rw [step_of_error running inside judged]
        simp [halt, inside, within]
    | ok instruction =>
        have unhalted := ((running_iff machine).mp running).1
        rw [step_of_ok running inside judged, halted_perform]
        simp [advance, unhalted, within]
  · have above : 4096 < machine.pc.toNat + 2 := Nat.lt_of_not_le inside
    rw [step_of_above running above]
    simp [failFetch, halt, above]

end Touching

end Machine

/-- A step raises the range fault when it would touch an address above the memory. Besides, a sprite
without rows raises it when the index stands above the memory, although it touches nothing there. -/
theorem range_fault_iff_touched_above_or_rowless (machine : Machine)
    (running : machine.running = true) :
    (machine.step.halted = true ∧ machine.step.fault = some .memoryOutOfRange) ↔
      (∃ address ∈ machine.touched, 4096 ≤ address) ∨
        machine.pc.toNat + 2 ≤ 4096 ∧ machine.fetched.digit 3 = 0xD ∧
          machine.fetched.digit 0 = 0 ∧ 4096 < machine.index.toNat := by
  rw [machine.step_range_iff running, machine.exists_above_touched, machine.refuses_range_iff,
    and_or_left, or_assoc]

/-- Three digits at the last two bytes do not fit, and nothing of them is stored. -/
theorem range_fault_of_digits_at_end :
    let machine := { Machine.fresh (MersenneTwister.seeded 0) with
      index := 0xFFE, memory := Memory.zeroed.writeAll 0x200 [0xF0, 0x33] }
    machine.touched = [0x200, 0x201, 0xFFE, 0xFFF, 0x1000] ∧
      machine.step.fault = some .memoryOutOfRange := by
  intro machine
  have touches : machine.touched = [0x200, 0x201, 0xFFE, 0xFFF, 0x1000] := by decide +kernel
  have raised := (range_fault_iff_touched_above_or_rowless machine rfl).mpr
    (.inl ⟨0x1000, by rw [touches]; decide, Nat.le_refl _⟩)
  exact ⟨touches, raised.2⟩

/-- A sprite without rows touches only its own word, and it raises the fault all the same. -/
theorem range_fault_of_rowless_sprite :
    let machine := { Machine.fresh (MersenneTwister.seeded 0) with
      index := 0x1001, memory := Memory.zeroed.writeAll 0x200 [0xD0, 0x00] }
    machine.running = true ∧ machine.touched = [0x200, 0x201] ∧ machine.step.halted = true ∧
      machine.step.fault = some .memoryOutOfRange := by
  decide +kernel

/-- A raised fault leaves everything else as it was: the program counter has passed the refused
opcode, and it has not moved when the opcode could not be fetched. -/
theorem faults_are_atomic (machine : Machine) :
    (∀ opcode, (machine.Raises opcode ↔ ∃ fault, machine.Refuses opcode fault) ∧
      ∀ fault, machine.Refuses opcode fault →
        machine.execute opcode =
          { machine with
            pc := machine.pc + 2, faultAddress := machine.pc, halted := true,
            fault := some fault, faultOpcode := opcode }) ∧
      (machine.running = true → 4096 < machine.pc.toNat + 2 →
        machine.step =
          { machine with
            faultAddress := machine.pc, halted := true, fault := some .memoryOutOfRange,
            faultOpcode := 0 }) := by
  refine ⟨fun opcode => ⟨Machine.raises_iff, fun fault => Machine.execute_of_refuses⟩, ?_⟩
  intro running above
  exact Machine.step_of_above running above

/-- A sprite beyond the memory leaves the flag alone, and a word beyond it the program counter. -/
theorem faults_are_atomic_at_end :
    let machine := { Machine.fresh (MersenneTwister.seeded 0) with
      registers := (Vector.replicate 16 0).set 15 7, index := 0xFFC, pc := 0xFFF }
    (machine.execute 0xD005).register flagRegister = 7 ∧ (machine.execute 0xD005).pc = 0x1001 ∧
      machine.Raises 0xD005 ∧ machine.step.pc = 0xFFF := by
  intro machine
  obtain ⟨refusals, unfetched⟩ := faults_are_atomic machine
  have refused : machine.Refuses 0xD005 .memoryOutOfRange :=
    .range (show Opcode.reach? 0xD005 = some 5 by decide) (by decide)
  refine ⟨?_, ?_, (refusals 0xD005).1.mpr ⟨_, refused⟩, ?_⟩
  · rw [(refusals 0xD005).2 _ refused]
    rfl
  · rw [(refusals 0xD005).2 _ refused]
    rfl
  · rw [unfetched rfl (by decide)]

end Chip8
