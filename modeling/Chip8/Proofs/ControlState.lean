import Chip8.Proofs.Cycle
import Chip8.Proofs.System

/-!
This file holds the invariant of the control state. The halt flag and the fault agree, a halted
machine awaits no key, and the stack, the wait register and the pixels stay within their bounds.
-/

namespace Chip8

/-- A picture is binary when every pixel is zero or one. -/
def Display.Binary (display : Display) : Prop :=
  ∀ pixel ∈ display.pixels, pixel = 0 ∨ pixel = 1

theorem Display.binary_blank : Display.blank.Binary := by
  intro pixel member
  exact .inl (Vector.eq_of_mem_replicate member)

theorem Display.Binary.toggleCell {display : Display} (binary : display.Binary)
    (target : Fin 2048) : (display.toggleCell target).1.Binary := by
  intro pixel member
  obtain ⟨place, inside, rfl⟩ := Vector.getElem_of_mem member
  simp only [Display.toggleCell, Fin.getElem_fin, Vector.getElem_set]
  split
  · rcases binary _ (Vector.getElem_mem target.isLt) with dark | lit
    · right
      rw [dark]
      decide
    · left
      rw [lit]
      decide
  · exact binary _ (Vector.getElem_mem inside)

theorem Display.Binary.toggle {display : Display} (binary : display.Binary) (x y : Int) :
    (display.toggle x y).1.Binary := by
  unfold Display.toggle
  split
  · exact binary
  · exact binary.toggleCell _

namespace Machine

/-- The control state tells whether a machine runs, waits or has halted. -/
structure Controlled (machine : Machine) : Prop where
  halted_iff_fault : machine.halted = true ↔ machine.fault ≠ none
  quiet : machine.fault = none → machine.faultOpcode = 0
  exclusive : ¬ (machine.halted = true ∧ machine.mode = .awaitingKey)
  depth : machine.stack.length ≤ 16
  waitRegister : machine.waitRegister.val ≤ 15
  binary : machine.display.Binary

theorem binary_drawPixels (machine : Machine) (origin : Register) (offsets : List (Nat × Nat))
    (binary : machine.display.Binary) : (machine.drawPixels origin offsets).display.Binary := by
  induction offsets generalizing machine with
  | nil => exact binary
  | cons offset rest inductionHypothesis =>
      apply inductionHypothesis (machine.drawPixel origin offset)
      have drawn := binary.toggle ↑((machine.register origin).toNat + offset.1)
        ↑((machine.register origin).toNat + offset.2)
      simp only [drawPixel]
      split
      · exact drawn
      · exact drawn

theorem binary_perform {machine : Machine} (instruction : Instruction)
    (binary : machine.display.Binary) : (machine.perform instruction).display.Binary := by
  by_cases assigned : Place.display ∈ instruction.writes machine
  · cases instruction with
    | clearDisplay => exact Display.binary_blank
    | draw origin height => exact binary_drawPixels _ origin _ binary
    | _ => simp [Instruction.writes, memoryBlock] at assigned
  · have same : (machine.perform instruction).display = machine.display :=
      machine.content_perform instruction assigned
    rw [same]
    exact binary

theorem waitRegister_perform {machine : Machine} (instruction : Instruction)
    (small : machine.waitRegister.val ≤ 15) :
    (machine.perform instruction).waitRegister.val ≤ 15 := by
  by_cases assigned : Place.waitRegister ∈ instruction.writes machine
  · cases instruction with
    | awaitKey x => exact Nat.le_of_lt_succ x.isLt
    | _ => simp [Instruction.writes, memoryBlock] at assigned
  · have same : (machine.perform instruction).waitRegister = machine.waitRegister :=
      machine.content_perform instruction assigned
    rw [same]
    exact small

/-- Only an accepted call makes the stack longer. -/
theorem depth_perform {machine : Machine} {opcode : Opcode} {instruction : Instruction}
    (accepted : machine.verdict opcode = .ok instruction) (bounded : machine.stack.length ≤ 16) :
    (machine.advance.perform instruction).stack.length ≤ 16 := by
  rw [stack_perform]
  split
  · exact Nat.le_trans (List.tail_sublist machine.stack).length_le bounded
  · exact stack_room_of_call accepted
  · exact bounded

/-- A boot that succeeds has read a program and loaded it into the restarted machine. -/
theorem load?_of_boot (machine : Machine) (files : Rom.Files) (options : Options)
    (success : (machine.boot files options).2 = none) :
    ∃ program, (machine.restart options.seed).load? program (UInt16.ofNat Memory.programStart) =
      some (machine.boot files options).1 := by
  unfold boot at success ⊢
  split at success
  · simp at success
  · rename_i program _
    dsimp only at success ⊢
    split at success
    · simp at success
    · rename_i loaded accepted
      exact ⟨program, accepted⟩

namespace Controlled

theorem reset (machine : Machine) : machine.reset.Controlled where
  halted_iff_fault := by simp [Machine.reset, loadFont, fresh]
  quiet _ := rfl
  exclusive := by simp [Machine.reset, loadFont, fresh]
  depth := Nat.zero_le _
  waitRegister := Nat.zero_le _
  binary := Display.binary_blank

/-- A machine that halts while it runs is not left waiting. -/
theorem halt {machine : Machine} (controlled : machine.Controlled)
    (playing : machine.mode = .running) (fault : Fault) (opcode : Opcode) :
    (machine.halt fault opcode).Controlled where
  halted_iff_fault := by simp [Machine.halt]
  quiet := by simp [Machine.halt]
  exclusive := by simp [Machine.halt, playing]
  depth := controlled.depth
  waitRegister := controlled.waitRegister
  binary := controlled.binary

/-- The remaining fields have no part in the control state. -/
theorem elsewhere {machine : Machine} (controlled : machine.Controlled)
    {registers : Vector UInt8 16} {index pc : UInt16} {delay sound : UInt8} {memory : Memory}
    {keypad : Keypad} {faultAddress : UInt16} {generator : MersenneTwister} :
    ({ machine with
        registers := registers, index := index, pc := pc, delay := delay, sound := sound,
        memory := memory, keypad := keypad, faultAddress := faultAddress,
        generator := generator }).Controlled where
  halted_iff_fault := controlled.halted_iff_fault
  quiet := controlled.quiet
  exclusive := controlled.exclusive
  depth := controlled.depth
  waitRegister := controlled.waitRegister
  binary := controlled.binary

theorem advance {machine : Machine} (controlled : machine.Controlled) :
    machine.advance.Controlled :=
  controlled.elsewhere

/-- An instruction may start a wait, but it never halts the machine. -/
theorem perform {machine : Machine} (controlled : machine.Controlled)
    (unhalted : machine.halted = false) {opcode : Opcode} {instruction : Instruction}
    (accepted : machine.verdict opcode = .ok instruction) :
    (machine.advance.perform instruction).Controlled where
  halted_iff_fault := by
    rw [halted_perform, fault_perform]
    exact controlled.halted_iff_fault
  quiet := by
    rw [fault_perform, faultOpcode_perform]
    exact controlled.quiet
  exclusive := by
    rw [halted_perform]
    exact fun both => Bool.false_ne_true (unhalted.symm.trans both.1)
  depth := depth_perform accepted controlled.depth
  waitRegister := waitRegister_perform instruction controlled.waitRegister
  binary := binary_perform instruction controlled.binary

theorem step (machine : Machine) (controlled : machine.Controlled) : machine.step.Controlled := by
  refine machine.step_cases ?idle ?unfetched ?refused ?performed
  case idle => exact fun _ => controlled
  case unfetched =>
    intro running _
    have playing := (machine.running_iff.mp running).2
    have aimed : ({ machine with faultAddress := machine.pc } : Machine).Controlled :=
      controlled.elsewhere
    exact aimed.halt playing .memoryOutOfRange 0
  case refused =>
    intro fault running _ _
    exact controlled.advance.halt (machine.running_iff.mp running).2 fault _
  case performed =>
    intro instruction running _ accepted
    exact controlled.perform (machine.running_iff.mp running).1 accepted

theorem tickTimers (machine : Machine) (controlled : machine.Controlled) :
    machine.tickTimers.Controlled :=
  controlled.elsewhere

theorem resume {machine : Machine} (controlled : machine.Controlled) :
    ({ machine with mode := .running }).Controlled where
  halted_iff_fault := controlled.halted_iff_fault
  quiet := controlled.quiet
  exclusive := by simp
  depth := controlled.depth
  waitRegister := controlled.waitRegister
  binary := controlled.binary

/-- A key may end a wait, and then the machine runs. -/
theorem keyDown (machine : Machine) (key : UInt8) (controlled : machine.Controlled) :
    (machine.keyDown key).Controlled := by
  unfold Machine.keyDown
  dsimp only
  split
  · split
    · exact controlled.elsewhere
    · exact controlled.resume.elsewhere
  · exact controlled

theorem keyUp (machine : Machine) (key : UInt8) (controlled : machine.Controlled) :
    (machine.keyUp key).Controlled :=
  controlled.elsewhere

theorem seed {machine : Machine} (controlled : machine.Controlled) (value : UInt32) :
    (machine.seed value).Controlled :=
  controlled.elsewhere

theorem load? {machine loaded : Machine} (controlled : machine.Controlled)
    {program : List UInt8} {origin : UInt16}
    (accepted : machine.load? program origin = some loaded) : loaded.Controlled := by
  obtain ⟨memory, rfl⟩ := load?_eq accepted
  exact controlled.elsewhere

theorem restart (machine : Machine) (seed : Option UInt32) : (machine.restart seed).Controlled := by
  cases seed with
  | none => exact reset machine
  | some value => exact (reset machine).seed value

/-- After a boot that succeeds, the control state does not depend on the machine before it. -/
theorem booted (machine : Machine) (files : Rom.Files) (options : Options)
    (success : (machine.boot files options).2 = none) :
    (machine.boot files options).1.Controlled := by
  obtain ⟨program, accepted⟩ := machine.load?_of_boot files options success
  exact (restart machine options.seed).load? accepted

end Controlled

end Machine

namespace System

theorem controlled_move (system : System) (move : Move) (controlled : system.machine.Controlled) :
    (system.move move).1.machine.Controlled :=
  system.move_keeps Machine.Controlled.step Machine.Controlled.tickTimers
    Machine.Controlled.keyDown Machine.Controlled.keyUp move controlled

theorem controlled_play (system : System) (moves : List Move)
    (controlled : system.machine.Controlled) : (system.play moves).1.machine.Controlled :=
  system.play_keeps (fun system move _ => controlled_move system move) controlled

theorem controlled_operate (system : System) (operation : Operation)
    (controlled : system.machine.Controlled) : (system.operate operation).machine.Controlled :=
  operate_keeps Machine.Controlled.reset (fun _ value controlled => controlled.seed value)
    (fun _ _ controlled => controlled.elsewhere) controlled_move system operation controlled

theorem controlled_history (system : System) (operations : List Operation)
    (controlled : system.machine.Controlled) : (system.history operations).machine.Controlled :=
  history_keeps controlled_operate system operations controlled

end System

/-- The control state stays consistent in every history of a machine that was reset. -/
theorem control_state_consistent (machine : Machine) (scheduler : Scheduler)
    (operations : List Operation) :
    (System.history ⟨machine.reset, scheduler⟩ operations).machine.Controlled :=
  System.controlled_history ⟨machine.reset, scheduler⟩ operations (Machine.Controlled.reset machine)

end Chip8
