import Chip8.Proofs.ControlState
import Chip8.Proofs.Trail

/-!
This file holds the arithmetic of addresses. The program counter and the saved addresses stay far
below the end of sixteen bits, so that the sums of a step are the sums of natural numbers, and an
address above the memory is never taken for a low one.
-/

namespace Chip8

namespace Instruction

/-- Jumps and calls have an address as their operand. -/
def destination? : Instruction → Option UInt16
  | .jump target => some target
  | .call target => some target
  | .jumpFromFirst target => some target
  | _ => none

/-- An instruction that is not a skip never skips. -/
def skips (machine : Machine) : Instruction → Bool
  | .skipIfByte x value => machine.register x == value
  | .skipUnlessByte x value => machine.register x != value
  | .skipIfEqual x y => machine.register x == machine.register y
  | .skipUnlessEqual x y => machine.register x != machine.register y
  | .skipIfPressed x => machine.keypad.isPressed (machine.register x)
  | .skipUnlessPressed x => !machine.keypad.isPressed (machine.register x)
  | _ => false

theorem destination?_ofArithmetic? (opcode : Opcode) :
    (ofArithmetic? opcode).bind destination? = none := by
  unfold ofArithmetic?
  split <;> rfl

theorem destination?_ofKeypad? (opcode : Opcode) :
    (ofKeypad? opcode).bind destination? = none := by
  unfold ofKeypad?
  split <;> rfl

theorem destination?_ofDevice? (opcode : Opcode) :
    (ofDevice? opcode).bind destination? = none := by
  unfold ofDevice?
  split <;> rfl

/-- Every operand that is an address consists of the low twelve bits of its opcode. -/
theorem destination?_decode? {opcode : Opcode} {target : UInt16}
    (aims : (decode? opcode).bind destination? = some target) : target = opcode.address := by
  unfold decode? at aims
  split at aims
  case h_1 =>
    unfold ofSystem at aims
    repeat' split at aims
    all_goals simp [destination?] at aims
  case h_9 => simp [destination?_ofArithmetic?] at aims
  case h_15 => simp [destination?_ofKeypad?] at aims
  case h_16 => simp [destination?_ofDevice?] at aims
  all_goals simp_all [destination?]

end Instruction

namespace Machine

/-- The address of the next instruction is counted without a bound. -/
def nextAddress (machine : Machine) (instruction : Instruction) : Nat :=
  match instruction with
  | .leaveRoutine => (machine.stack.headD 0).toNat
  | .jump target => target.toNat
  | .call target => target.toNat
  | .jumpFromFirst target => target.toNat + (machine.register firstRegister).toNat
  | _ => machine.pc.toNat + 2 + if instruction.skips machine then 2 else 0

/-- The highest counter is that of a jump from `FFF` by 255. A saved address stands behind a call,
and the last call that can be fetched stands at `FFE`. -/
structure Addressed (machine : Machine) : Prop where
  counter : machine.pc.toNat ≤ 0x10FE
  saved : ∀ address ∈ machine.stack, 2 ≤ address.toNat ∧ address.toNat ≤ 0x1000

/-- A step counts exactly when each of its sums is the sum of natural numbers, and when a counter
above the memory is reported as it stands. -/
structure CountsExactly (machine : Machine) : Prop where
  advanced : machine.running = true → machine.pc.toNat + 2 ≤ 4096 →
    machine.advance.pc.toNat = machine.pc.toNat + 2
  performed : ∀ instruction, machine.executing? = some instruction →
    machine.step.pc.toNat = machine.nextAddress instruction
  called : ∀ target, machine.executing? = some (.call target) →
    ∃ saved, machine.step.stack = saved :: machine.stack ∧ saved.toNat = machine.pc.toNat + 2
  beyond : machine.running = true → 4096 < machine.pc.toNat + 2 →
    machine.step =
      { machine with
        halted := true, fault := some .memoryOutOfRange, faultAddress := machine.pc,
        faultOpcode := 0 }

theorem toNat_add_two {address : UInt16} (low : address.toNat + 2 ≤ 4098) :
    (address + 2).toNat = address.toNat + 2 := by
  rw [UInt16.toNat_add]
  exact Nat.mod_eq_of_lt (by simp only [UInt16.reduceToNat]; omega)

theorem toNat_pc_advance {machine : Machine} (inside : machine.pc.toNat + 2 ≤ 4096) :
    machine.advance.pc.toNat = machine.pc.toNat + 2 :=
  toNat_add_two (Nat.le_trans inside (by decide))

theorem toNat_pc_skipIf {machine : Machine} (low : machine.pc.toNat ≤ 4096) (condition : Bool) :
    (machine.skipIf condition).pc.toNat = machine.pc.toNat + if condition then 2 else 0 := by
  cases condition with
  | false => rfl
  | true => exact toNat_add_two (Nat.add_le_add_right low 2)

/-- An instruction that is no jump, no return and no skip leaves the program counter alone. -/
theorem toNat_pc_perform {machine : Machine} {instruction : Instruction}
    (inside : machine.pc.toNat + 2 ≤ 4096)
    (low : ∀ target, instruction.destination? = some target → target.toNat < 4096)
    (filled : instruction = .leaveRoutine → machine.stack ≠ []) :
    (machine.advance.perform instruction).pc.toNat = machine.nextAddress instruction := by
  have advanced := toNat_pc_advance inside
  have within : machine.advance.pc.toNat ≤ 4096 := Nat.le_trans (Nat.le_of_eq advanced) inside
  have skipped (condition : Bool) : (machine.advance.skipIf condition).pc.toNat =
      machine.pc.toNat + 2 + if condition then 2 else 0 := by
    rw [toNat_pc_skipIf within, advanced]
  have kept (elsewhere : Place.pc ∉ instruction.writes machine.advance) :
      (machine.advance.perform instruction).pc.toNat = machine.pc.toNat + 2 :=
    (congrArg UInt16.toNat (machine.advance.content_perform instruction elsewhere)).trans advanced
  cases instruction with
  | leaveRoutine =>
      obtain ⟨address, rest, stacked⟩ := List.exists_cons_of_ne_nil (filled rfl)
      have entries : machine.advance.stack = address :: rest := stacked
      simp only [perform, leaveRoutine, entries, nextAddress, stacked, List.headD_cons]
  | jump target => rfl
  | call target => rfl
  | jumpFromFirst target =>
      have bound := low target rfl
      have offset := (machine.register firstRegister).toNat_lt
      change (target + (machine.register firstRegister).toUInt16).toNat = _
      rw [UInt16.toNat_add, UInt8.toNat_toUInt16]
      exact Nat.mod_eq_of_lt (by omega)
  | skipIfByte _ _ | skipUnlessByte _ _ | skipIfEqual _ _ | skipUnlessEqual _ _
  | skipIfPressed _ | skipUnlessPressed _ => exact skipped _
  | _ => exact kept (by simp [Instruction.writes, memoryBlock])

theorem low_destination {machine : Machine} {opcode : Opcode} {instruction : Instruction}
    (accepted : machine.verdict opcode = .ok instruction) {target : UInt16}
    (aims : instruction.destination? = some target) : target.toNat < 4096 := by
  have decoded := (verdict_eq_ok.mp accepted).1
  have operand : target = opcode.address :=
    Instruction.destination?_decode? (by rw [decoded]; exact aims)
  rw [operand]
  exact opcode.address_lt

theorem toNat_pc_step {machine : Machine} {instruction : Instruction}
    (executes : machine.executing? = some instruction) :
    machine.step.pc.toNat = machine.nextAddress instruction := by
  obtain ⟨_, inside, accepted⟩ := executing?_eq_some.mp executes
  rw [step_of_executing executes]
  refine toNat_pc_perform inside (fun _ aims => low_destination accepted aims) ?_
  rintro rfl
  exact stack_filled_of_return accepted

/-- The fetch bounds the counter, so that no sum of a step depends on the history of the machine. -/
theorem countsExactly (machine : Machine) : machine.CountsExactly where
  advanced _ inside := toNat_pc_advance inside
  performed _ executes := toNat_pc_step executes
  called target executes := by
    obtain ⟨_, inside, _⟩ := executing?_eq_some.mp executes
    refine ⟨machine.pc + 2, ?_, toNat_pc_advance inside⟩
    rw [step_of_executing executes]
    rfl
  beyond running above := step_of_above running above

namespace Addressed

variable {machine : Machine}

/-- Only the program counter and the stack hold addresses. -/
theorem elsewhere (addressed : machine.Addressed) {registers : Vector UInt8 16} {index : UInt16}
    {delay sound : UInt8} {memory : Memory} {keypad : Keypad} {mode : Mode} {halted : Bool}
    {fault : Option Fault} {faultAddress : UInt16} {faultOpcode : Opcode}
    {generator : MersenneTwister} :
    ({ machine with
        registers := registers, index := index, delay := delay, sound := sound, memory := memory,
        keypad := keypad, mode := mode, halted := halted, fault := fault,
        faultAddress := faultAddress, faultOpcode := faultOpcode,
        generator := generator }).Addressed where
  counter := addressed.counter
  saved := addressed.saved

theorem reset (machine : Machine) : machine.reset.Addressed where
  counter := Nat.le_of_ble_eq_true rfl
  saved := by simp [Machine.reset, loadFont, fresh]

theorem advance (addressed : machine.Addressed) (inside : machine.pc.toNat + 2 ≤ 4096) :
    machine.advance.Addressed where
  counter := by
    rw [toNat_pc_advance inside]
    omega
  saved := addressed.saved

/-- Every next address is an operand with an offset of one byte, a saved address, or lies at most
four bytes behind the instruction. -/
theorem nextAddress_le (addressed : machine.Addressed) {instruction : Instruction}
    (inside : machine.pc.toNat + 2 ≤ 4096)
    (low : ∀ target, instruction.destination? = some target → target.toNat < 4096) :
    machine.nextAddress instruction ≤ 0x10FE := by
  cases instruction with
  | leaveRoutine =>
      cases stacked : machine.stack with
      | nil => simp [nextAddress, stacked]
      | cons address rest =>
          have saved := addressed.saved address (stacked ▸ List.mem_cons_self)
          simp only [nextAddress, stacked, List.headD_cons]
          omega
  | jump target | call target =>
      have bound := low target rfl
      simp only [nextAddress]
      omega
  | jumpFromFirst target =>
      have bound := low target rfl
      have offset := (machine.register firstRegister).toNat_lt
      simp only [nextAddress]
      omega
  | _ =>
      simp only [nextAddress]
      split <;> omega

/-- A call saves the address behind it, which is at most the first one above the memory. -/
theorem saved_perform (addressed : machine.Addressed) (instruction : Instruction)
    (inside : machine.pc.toNat + 2 ≤ 4096) :
    ∀ address ∈ (machine.advance.perform instruction).stack,
      2 ≤ address.toNat ∧ address.toNat ≤ 0x1000 := by
  have behind := toNat_pc_advance inside
  intro address member
  rw [stack_perform] at member
  split at member
  · exact addressed.saved address (List.mem_of_mem_tail member)
  · rcases List.mem_cons.mp member with rfl | older
    · omega
    · exact addressed.saved address older
  · exact addressed.saved address member

theorem step (machine : Machine) (addressed : machine.Addressed) : machine.step.Addressed := by
  refine machine.step_cases ?idle ?unfetched ?refused ?performed
  case idle => exact fun _ => addressed
  case unfetched => exact fun _ _ => addressed.elsewhere
  case refused => exact fun _ _ inside _ => (addressed.advance inside).elsewhere
  case performed =>
    intro instruction running inside accepted
    have low (target : UInt16) (aims : instruction.destination? = some target) :=
      low_destination accepted aims
    have counted := toNat_pc_step (executing?_eq_some.mpr ⟨running, inside, accepted⟩)
    rw [step_of_ok running inside accepted] at counted
    exact
      { counter := Nat.le_trans (Nat.le_of_eq counted) (addressed.nextAddress_le inside low)
        saved := addressed.saved_perform instruction inside }

theorem tickTimers (machine : Machine) (addressed : machine.Addressed) :
    machine.tickTimers.Addressed :=
  addressed.elsewhere

theorem keyDown (machine : Machine) (key : UInt8) (addressed : machine.Addressed) :
    (machine.keyDown key).Addressed := by
  rw [machine.keyDown_eq key]
  exact addressed.elsewhere

theorem keyUp (machine : Machine) (key : UInt8) (addressed : machine.Addressed) :
    (machine.keyUp key).Addressed :=
  addressed.elsewhere

theorem history (system : System) (operations : List Operation)
    (addressed : system.machine.Addressed) : (system.history operations).machine.Addressed :=
  System.history_keeps
    (System.operate_keeps reset (fun _ _ addressed => addressed.elsewhere)
      (fun _ _ addressed => addressed.elsewhere)
      (System.move_keeps step tickTimers keyDown keyUp))
    system operations addressed

end Addressed

end Machine

/-- After every history of a machine that was reset, the program counter and the saved addresses
are far from sixteen bits, also in the middle of a frame, and every step counts exactly. -/
theorem program_counter_never_wraps (machine : Machine) (scheduler : Scheduler)
    (operations : List Operation) (moves : List Move) (visited : Machine)
    (passed : visited ∈ System.trail (System.history ⟨machine.reset, scheduler⟩ operations) moves ++
      [(System.play (System.history ⟨machine.reset, scheduler⟩ operations) moves).1.machine]) :
    visited.Addressed ∧ visited.CountsExactly := by
  have started := Machine.Addressed.history ⟨machine.reset, scheduler⟩ operations
    (Machine.Addressed.reset machine)
  have kept : KeptAlong (fun _ => True) Machine.Addressed _ :=
    System.keptAlong_play (fun machine _ => Machine.Addressed.step machine)
      Machine.Addressed.tickTimers Machine.Addressed.keyDown Machine.Addressed.keyUp _ moves started
  exact ⟨kept.forall_mem visited passed, visited.countsExactly⟩

/-- The jump from `FFF` by 255 is taken in the middle of a frame, and the fetch behind it fails at
the highest counter of all. -/
theorem program_counter_of_highest_jump :
    let loaded := System.history ⟨(Machine.fresh (MersenneTwister.seeded 0)).reset, {}⟩
      [.load [0x60, 0xFF, 0xBF, 0xFF] 0x200]
    let highest := loaded.machine.step.step
    (highest.Addressed ∧ highest.CountsExactly) ∧ highest.pc = 0x10FE ∧
      highest.step.pc = 0x10FE ∧ highest.step.fault = some .memoryOutOfRange := by
  intro loaded highest
  have running : loaded.machine.running = true ∧ loaded.machine.step.running = true ∧
      highest.running = true := by
    decide +kernel
  have passed : highest ∈ loaded.trail [.frame] ++ [(loaded.play [.frame]).1.machine] := by
    change highest ∈ loaded.machine.trail 10 ++ [] ++ _
    simp [Machine.trail, running, highest]
  exact ⟨program_counter_never_wraps _ _ _ [.frame] highest passed, by decide +kernel⟩

end Chip8
