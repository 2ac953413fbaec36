import Chip8.Proofs.Footprint

/-!
This file holds the instruction cycle as a case distinction. A machine at rest stays as it is, a
fetch may fail, an opcode may be refused with a fault, and an accepted instruction is performed.
-/

namespace Chip8

/-- No instruction assigns these places. -/
def reservedPlaces : List Place :=
  [.keypad, .halted, .fault, .faultAddress, .faultOpcode]

theorem Instruction.writes_reserved (instruction : Instruction) (machine : Machine) {place : Place}
    (reserved : place ∈ reservedPlaces) : place ∉ instruction.writes machine := by
  simp only [reservedPlaces, List.mem_cons, List.not_mem_nil, or_false] at reserved
  rcases reserved with rfl | rfl | rfl | rfl | rfl <;>
    cases instruction <;> simp [writes, memoryBlock]

namespace Machine

/-- The verdict on an opcode is the instruction to perform or the fault to raise. -/
def verdict (machine : Machine) (opcode : Opcode) : Except Fault Instruction :=
  match Instruction.decode? opcode with
  | none => .error .unknownOpcode
  | some instruction =>
      match instruction.fault? machine with
      | some fault => .error fault
      | none => .ok instruction

theorem verdict_of_decode {machine : Machine} {opcode : Opcode} {instruction : Instruction}
    (decoded : Instruction.decode? opcode = some instruction) :
    machine.verdict opcode =
      match instruction.fault? machine with
      | some fault => .error fault
      | none => .ok instruction := by
  simp only [verdict, decoded]

/-- A verdict looks at the stack and at the index only. -/
theorem verdict_congr {first second : Machine} (sameStack : first.stack = second.stack)
    (sameIndex : first.index = second.index) (opcode : Opcode) :
    first.verdict opcode = second.verdict opcode := by
  simp only [verdict, Instruction.fault?, sameStack, sameIndex]

theorem execute_of_error {machine : Machine} {opcode : Opcode} {fault : Fault}
    (refused : machine.verdict opcode = .error fault) :
    machine.execute opcode = machine.advance.halt fault opcode := by
  unfold verdict at refused
  unfold execute
  cases decoded : Instruction.decode? opcode with
  | none =>
      simp only [decoded, Except.error.injEq] at refused ⊢
      rw [refused]
  | some instruction =>
      simp only [decoded] at refused ⊢
      cases raised : instruction.fault? machine with
      | some other =>
          simp only [raised, Except.error.injEq] at refused ⊢
          rw [refused]
      | none => simp [raised] at refused

theorem execute_of_ok {machine : Machine} {opcode : Opcode} {instruction : Instruction}
    (accepted : machine.verdict opcode = .ok instruction) :
    machine.execute opcode = machine.advance.perform instruction := by
  unfold verdict at accepted
  unfold execute
  cases decoded : Instruction.decode? opcode with
  | none => simp [decoded] at accepted
  | some other =>
      simp only [decoded] at accepted ⊢
      cases raised : other.fault? machine with
      | some fault => simp [raised] at accepted
      | none =>
          simp only [raised, Except.ok.injEq] at accepted ⊢
          rw [accepted]

/-- An accepted instruction is the decoded one, and it does not fault. -/
theorem verdict_eq_ok {machine : Machine} {opcode : Opcode} {instruction : Instruction} :
    machine.verdict opcode = .ok instruction ↔
      Instruction.decode? opcode = some instruction ∧ instruction.fault? machine = none := by
  cases decoded : Instruction.decode? opcode with
  | none => simp [verdict, decoded]
  | some other =>
      rw [verdict_of_decode decoded]
      cases raised : other.fault? machine with
      | none =>
          simp only [Except.ok.injEq, Option.some.injEq]
          constructor
          · rintro rfl
            exact ⟨rfl, raised⟩
          · exact And.left
      | some fault =>
          simp only [reduceCtorEq, Option.some.injEq, false_iff, not_and]
          rintro rfl
          simp [raised]

/-- An accepted instruction does not fault. -/
theorem fault?_of_ok {machine : Machine} {opcode : Opcode} {instruction : Instruction}
    (accepted : machine.verdict opcode = .ok instruction) :
    instruction.fault? machine = none :=
  (verdict_eq_ok.mp accepted).2

/-- An accepted call finds room on the stack. -/
theorem stack_room_of_call {machine : Machine} {opcode : Opcode} {target : UInt16}
    (accepted : machine.verdict opcode = .ok (.call target)) :
    machine.stack.length < stackLimit := by
  simpa [Instruction.fault?] using fault?_of_ok accepted

/-- An accepted return finds an address on the stack. -/
theorem stack_filled_of_return {machine : Machine} {opcode : Opcode}
    (accepted : machine.verdict opcode = .ok .leaveRoutine) : machine.stack ≠ [] := by
  simpa [Instruction.fault?] using fault?_of_ok accepted

/-- The word that a machine fetches stands at its program counter. -/
def fetched (machine : Machine) : Opcode :=
  machine.memory.word machine.pc.toNat

/-- A failed fetch leaves the program counter at its address. -/
def failFetch (machine : Machine) : Machine :=
  { machine with faultAddress := machine.pc }.halt .memoryOutOfRange 0

section Step

variable {machine : Machine} (running : machine.running = true)

include running

theorem step_of_above (above : Memory.size < machine.pc.toNat + 2) :
    machine.step = machine.failFetch := by
  rw [step, if_pos running, if_neg (Nat.not_le.mpr above)]
  rfl

theorem step_of_error (inside : machine.pc.toNat + 2 ≤ Memory.size) {fault : Fault}
    (refused : machine.verdict machine.fetched = .error fault) :
    machine.step = machine.advance.halt fault machine.fetched := by
  rw [step, if_pos running, if_pos inside]
  exact execute_of_error refused

theorem step_of_ok (inside : machine.pc.toNat + 2 ≤ Memory.size) {instruction : Instruction}
    (accepted : machine.verdict machine.fetched = .ok instruction) :
    machine.step = machine.advance.perform instruction := by
  rw [step, if_pos running, if_pos inside]
  exact execute_of_ok accepted

end Step

/-- A property of the machine after a step is shown in four cases. -/
theorem step_cases {Goal : Machine → Prop} (machine : Machine)
    (idle : machine.running = false → Goal machine)
    (unfetched : machine.running = true → Memory.size < machine.pc.toNat + 2 →
      Goal machine.failFetch)
    (refused : ∀ fault, machine.running = true → machine.pc.toNat + 2 ≤ Memory.size →
      machine.verdict machine.fetched = .error fault →
      Goal (machine.advance.halt fault machine.fetched))
    (performed : ∀ instruction, machine.running = true → machine.pc.toNat + 2 ≤ Memory.size →
      machine.verdict machine.fetched = .ok instruction →
      Goal (machine.advance.perform instruction)) :
    Goal machine.step := by
  by_cases running : machine.running = true
  · by_cases inside : machine.pc.toNat + 2 ≤ Memory.size
    · cases judged : machine.verdict machine.fetched with
      | error fault =>
          rw [step_of_error running inside judged]
          exact refused fault running inside judged
      | ok instruction =>
          rw [step_of_ok running inside judged]
          exact performed instruction running inside judged
    · have above := Nat.lt_of_not_le inside
      rw [step_of_above running above]
      exact unfetched running above
  · have resting : machine.running = false := by simpa using running
    rw [step_of_not_running resting]
    exact idle resting

/-- A running machine has not halted and awaits no key. -/
theorem running_iff (machine : Machine) :
    machine.running = true ↔ machine.halted = false ∧ machine.mode = .running := by
  simp [running]

section Reserved

variable (machine : Machine) (instruction : Instruction)

theorem content_perform_reserved {place : Place} (reserved : place ∈ reservedPlaces) :
    (machine.perform instruction).content place = machine.content place :=
  machine.content_perform instruction (instruction.writes_reserved machine reserved)

@[simp] theorem keypad_perform : (machine.perform instruction).keypad = machine.keypad :=
  machine.content_perform_reserved instruction (show Place.keypad ∈ _ by decide)

@[simp] theorem halted_perform : (machine.perform instruction).halted = machine.halted :=
  machine.content_perform_reserved instruction (show Place.halted ∈ _ by decide)

@[simp] theorem fault_perform : (machine.perform instruction).fault = machine.fault :=
  machine.content_perform_reserved instruction (show Place.fault ∈ _ by decide)

@[simp] theorem faultAddress_perform :
    (machine.perform instruction).faultAddress = machine.faultAddress :=
  machine.content_perform_reserved instruction (show Place.faultAddress ∈ _ by decide)

@[simp] theorem faultOpcode_perform :
    (machine.perform instruction).faultOpcode = machine.faultOpcode :=
  machine.content_perform_reserved instruction (show Place.faultOpcode ∈ _ by decide)

/-- Only calls and returns change the stack. -/
theorem stack_perform :
    (machine.perform instruction).stack =
      match instruction with
      | .leaveRoutine => machine.stack.tail
      | .call _ => machine.pc :: machine.stack
      | _ => machine.stack := by
  cases instruction with
  | leaveRoutine =>
      change machine.leaveRoutine.stack = machine.stack.tail
      unfold leaveRoutine
      split
      · rename_i empty
        rw [empty, List.tail_nil]
      · rename_i address rest entries
        rw [entries, List.tail_cons]
  | call target => rfl
  | _ =>
      exact machine.content_perform _
        (show Place.stack ∉ _ by simp [Instruction.writes, memoryBlock])

/-- An opcode is remembered by its address, whether or not it is refused. -/
theorem faultAddress_execute (opcode : Opcode) :
    (machine.execute opcode).faultAddress = machine.pc := by
  cases judged : machine.verdict opcode with
  | error fault =>
      rw [execute_of_error judged]
      rfl
  | ok accepted =>
      rw [execute_of_ok judged, faultAddress_perform]
      rfl

end Reserved

end Machine

end Chip8
