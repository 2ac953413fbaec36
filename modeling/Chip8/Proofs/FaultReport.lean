import Chip8.Proofs.ControlState
import Chip8.Proofs.Verdict

/-!
This file holds the fault report of a halted machine. The report can be checked against the machine
itself, because a faulting instruction changes nothing that it is judged by, and nothing that
happens afterwards changes it either.
-/

namespace Chip8

theorem Memory.word_toNat (memory : Memory) (address : Nat) :
    (memory.word address).toNat =
      256 * (memory.read address).toNat + (memory.read (address + 1)).toNat := by
  have low : (memory.read (address + 1)).toNat < 2 ^ 8 := UInt8.toNat_lt _
  have high : (memory.read address).toNat < 2 ^ 8 := UInt8.toNat_lt _
  have shifted :
      (memory.read address).toNat <<< 8 % 2 ^ 16 = (memory.read address).toNat <<< 8 := by
    rw [Nat.shiftLeft_eq]
    exact Nat.mod_eq_of_lt (by omega)
  calc
    (memory.word address).toNat =
        (memory.read address).toNat <<< 8 % 2 ^ 16 ||| (memory.read (address + 1)).toNat := by
      simp only [word, UInt16.toNat_or, UInt16.toNat_shiftLeft, UInt8.toNat_toUInt16]
      rfl
    _ = 256 * (memory.read address).toNat + (memory.read (address + 1)).toNat := by
      rw [shifted, ← Nat.shiftLeft_add_eq_or_of_lt low, Nat.shiftLeft_eq]
      omega

namespace Machine

/-- A failed fetch is reported without an opcode, and the program counter stays at its address. -/
structure FetchReport (machine : Machine) : Prop where
  fault : machine.fault = some .memoryOutOfRange
  opcode : machine.faultOpcode = 0
  counter : machine.pc = machine.faultAddress

/-- A refused opcode still stands at its address, and each fault is reported exactly when its
condition holds for the opcode, the stack and the index of the halted machine. -/
structure RefusalReport (machine : Machine) : Prop where
  counter : machine.pc.toNat = machine.faultAddress.toNat + 2
  opcode : machine.faultOpcode.toNat =
    256 * (machine.memory.read machine.faultAddress.toNat).toNat +
      (machine.memory.read (machine.faultAddress.toNat + 1)).toNat
  present : machine.fault ≠ none
  unknown : machine.fault = some .unknownOpcode ↔
    Instruction.decode? machine.faultOpcode = none
  underflow : machine.fault = some .stackUnderflow ↔
    machine.faultOpcode = 0x00EE ∧ machine.stack = []
  overflow : machine.fault = some .stackOverflow ↔
    machine.faultOpcode.digit 3 = 2 ∧ machine.stack.length = 16
  range : machine.fault = some .memoryOutOfRange ↔
    ∃ length, machine.faultOpcode.reach? = some length ∧ 4096 < machine.index.toNat + length

/-- The address of the fault tells which of the two reports a halted machine gives. -/
def Truthful (machine : Machine) : Prop :=
  if 4096 < machine.faultAddress.toNat + 2 then machine.FetchReport else machine.RefusalReport

/-- The verdict on a refused opcode can be repeated on the halted machine. -/
structure Refused (machine : Machine) : Prop where
  inside : machine.faultAddress.toNat + 2 ≤ 4096
  counter : machine.pc = machine.faultAddress + 2
  opcode : machine.faultOpcode = machine.memory.word machine.faultAddress.toNat
  verdict : ∃ fault, machine.fault = some fault ∧
    machine.verdict machine.faultOpcode = .error fault

/-- The invariant of a play says nothing before the machine halts. -/
def Accounted (machine : Machine) : Prop :=
  machine.halted = true →
    (4096 < machine.faultAddress.toNat + 2 ∧ machine.FetchReport) ∨ machine.Refused

namespace Accounted

theorem of_not_halted {machine : Machine} (unhalted : machine.halted = false) :
    machine.Accounted := by
  intro halted
  simp [unhalted] at halted

theorem step (machine : Machine) (accounted : machine.Accounted) : machine.step.Accounted := by
  refine machine.step_cases ?idle ?unfetched ?refused ?performed
  case idle => exact fun _ => accounted
  case unfetched =>
    intro _ above _
    exact .inl ⟨above, rfl, rfl, rfl⟩
  case refused =>
    intro fault _ inside refused _
    have repeated : (machine.advance.halt fault machine.fetched).verdict machine.fetched =
        .error fault := (verdict_congr rfl rfl machine.fetched).trans refused
    exact .inr ⟨inside, rfl, rfl, fault, rfl, repeated⟩
  case performed =>
    intro instruction running _ _
    apply of_not_halted
    rw [halted_perform]
    exact (machine.running_iff.mp running).1

/-- Registers, timers, the keypad and the mode have no part in the report. -/
theorem elsewhere {machine : Machine} (accounted : machine.Accounted)
    {registers : Vector UInt8 16} {delay sound : UInt8} {keypad : Keypad} {mode : Mode} :
    ({ machine with
        registers := registers, delay := delay, sound := sound, keypad := keypad,
        mode := mode }).Accounted := by
  intro halted
  rcases accounted halted with ⟨above, report⟩ | refused
  · exact .inl ⟨above, report.fault, report.opcode, report.counter⟩
  · obtain ⟨fault, reported, verdict⟩ := refused.verdict
    exact .inr ⟨refused.inside, refused.counter, refused.opcode, fault, reported,
      (verdict_congr rfl rfl _).trans verdict⟩

theorem tickTimers (machine : Machine) (accounted : machine.Accounted) :
    machine.tickTimers.Accounted :=
  accounted.elsewhere

theorem keyDown (machine : Machine) (key : UInt8) (accounted : machine.Accounted) :
    (machine.keyDown key).Accounted := by
  rw [machine.keyDown_eq key]
  exact accounted.elsewhere

theorem keyUp (machine : Machine) (key : UInt8) (accounted : machine.Accounted) :
    (machine.keyUp key).Accounted :=
  accounted.elsewhere

theorem play (system : System) (moves : List Move) (accounted : system.machine.Accounted) :
    (system.play moves).1.machine.Accounted :=
  system.play_keeps (fun system move _ => system.move_keeps step tickTimers keyDown keyUp move)
    accounted

end Accounted

/-- The verdict on the reported opcode says which faults could have been raised. -/
theorem Refused.report {machine : Machine} (refused : machine.Refused)
    (depth : machine.stack.length ≤ 16) : machine.RefusalReport := by
  obtain ⟨fault, reported, verdict⟩ := refused.verdict
  have raised (other : Fault) : machine.fault = some other ↔
      machine.verdict machine.faultOpcode = .error other := by
    rw [reported, verdict]
    simp
  have inside := refused.inside
  constructor
  case counter =>
    rw [refused.counter, UInt16.toNat_add]
    exact Nat.mod_eq_of_lt (by simp only [UInt16.reduceToNat]; omega)
  case opcode =>
    rw [refused.opcode]
    exact machine.memory.word_toNat machine.faultAddress.toNat
  case present => simp [reported]
  case unknown => exact (raised .unknownOpcode).trans verdict_eq_unknown
  case underflow => exact (raised .stackUnderflow).trans verdict_eq_underflow
  case overflow =>
    rw [raised .stackOverflow, verdict_eq_overflow]
    exact and_congr_right fun _ => ⟨fun full => by omega, fun full => by omega⟩
  case range => exact (raised .memoryOutOfRange).trans verdict_eq_range

theorem Accounted.truthful {machine : Machine} (accounted : machine.Accounted)
    (depth : machine.stack.length ≤ 16) (halted : machine.halted = true) : machine.Truthful := by
  unfold Truthful
  rcases accounted halted with ⟨above, report⟩ | refused
  · rw [if_pos above]
    exact report
  · rw [if_neg (Nat.not_lt.mpr refused.inside)]
    exact refused.report depth

/-- A boot loads its program into a machine that was just restarted. -/
theorem booted_eq (machine : Machine) (files : Rom.Files) (options : Options)
    (success : (machine.boot files options).2 = none) :
    ∃ memory, (machine.boot files options).1 =
      { machine.restart options.seed with memory := memory } := by
  obtain ⟨program, accepted⟩ := machine.load?_of_boot files options success
  exact load?_eq accepted

theorem halted_booted (machine : Machine) (files : Rom.Files) (options : Options)
    (success : (machine.boot files options).2 = none) :
    (machine.boot files options).1.halted = false := by
  obtain ⟨memory, booted⟩ := machine.booted_eq files options success
  rw [booted]
  cases options.seed <;> rfl

end Machine

/-- A machine that halts after a successful boot reports the fault that really happened. -/
theorem fault_report_truthful (machine : Machine) (files : Rom.Files) (options : Options)
    (success : (machine.boot files options).2 = none) (scheduler : Scheduler) (moves : List Move)
    (halted : (System.play ⟨(machine.boot files options).1, scheduler⟩ moves).1.machine.halted =
      true) :
    (System.play ⟨(machine.boot files options).1, scheduler⟩ moves).1.machine.Truthful := by
  have controlled := System.controlled_play ⟨(machine.boot files options).1, scheduler⟩ moves
    (Machine.Controlled.booted machine files options success)
  have accounted := Machine.Accounted.play ⟨(machine.boot files options).1, scheduler⟩ moves
    (Machine.Accounted.of_not_halted (machine.halted_booted files options success))
  exact accounted.truthful controlled.depth halted

/-- The lone return is reported as an underflow at its own address. -/
theorem fault_report_of_lone_return :
    let machine := Machine.fresh (MersenneTwister.seeded 0)
    let booted := machine.boot (Rom.Files.holding loneReturn) {}
    let halted := (System.play ⟨booted.1, {}⟩ [.frame, .keyDown 3, .tickTimers, .frame]).1.machine
    halted.Truthful ∧ halted.fault = some .stackUnderflow ∧ halted.faultAddress = 0x204 := by
  intro machine booted halted
  have success : booted.2 = none := by decide +kernel
  have checked : halted.halted = true ∧ halted.fault = some .stackUnderflow ∧
      halted.faultAddress = 0x204 := by decide +kernel
  have truthful := fault_report_truthful machine (Rom.Files.holding loneReturn) {} success {}
    [.frame, .keyDown 3, .tickTimers, .frame] checked.1
  exact ⟨truthful, checked.2⟩

end Chip8
