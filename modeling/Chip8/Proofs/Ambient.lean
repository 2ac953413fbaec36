import Chip8.Proofs.Trail

/-!
This file holds the ambient places of a machine, which are its timers and its generator. Four
instructions touch them, and every other instruction does the same whatever they contain. A machine
that draws no random byte therefore runs alike with every generator.
-/

namespace Chip8

/-- A detached instruction neither reads nor assigns an ambient place. -/
def Instruction.Detached : Instruction → Prop
  | .random _ _ => False
  | .readDelay _ => False
  | .setDelay _ => False
  | .setSound _ => False
  | _ => True

namespace Machine

/-- The ambient places are changed one by one, and everything else is kept. -/
def ambient (machine : Machine) (delay sound : UInt8 → UInt8)
    (generator : MersenneTwister → MersenneTwister) : Machine :=
  { machine with
    delay := delay machine.delay, sound := sound machine.sound,
    generator := generator machine.generator }

section Perform

variable (machine : Machine) (delay sound : UInt8 → UInt8)
  (generator : MersenneTwister → MersenneTwister)

theorem drawPixel_ambient (origin : Register) (offset : Nat × Nat) :
    (machine.ambient delay sound generator).drawPixel origin offset =
      (machine.drawPixel origin offset).ambient delay sound generator := by
  unfold drawPixel
  dsimp only
  rw [apply_ite fun drawn => ambient drawn delay sound generator]
  rfl

theorem drawPixels_ambient (origin : Register) (offsets : List (Nat × Nat)) :
    (machine.ambient delay sound generator).drawPixels origin offsets =
      (machine.drawPixels origin offsets).ambient delay sound generator := by
  induction offsets generalizing machine with
  | nil => rfl
  | cons offset rest inductionHypothesis =>
      exact (congrArg (fun drawn => drawn.drawPixels origin rest)
        (machine.drawPixel_ambient delay sound generator origin offset)).trans
          (inductionHypothesis (machine.drawPixel origin offset))

theorem skipIf_ambient (condition : Bool) :
    (machine.ambient delay sound generator).skipIf condition =
      (machine.skipIf condition).ambient delay sound generator := by
  cases condition <;> rfl

theorem leaveRoutine_ambient :
    (machine.ambient delay sound generator).leaveRoutine =
      machine.leaveRoutine.ambient delay sound generator := by
  have entries : (machine.ambient delay sound generator).stack = machine.stack := rfl
  unfold leaveRoutine
  rw [entries]
  split <;> rfl

theorem perform_ambient {instruction : Instruction} (detached : instruction.Detached) :
    (machine.ambient delay sound generator).perform instruction =
      (machine.perform instruction).ambient delay sound generator := by
  cases instruction with
  | random _ _ | readDelay _ | setDelay _ | setSound _ => exact detached.elim
  | leaveRoutine => exact machine.leaveRoutine_ambient delay sound generator
  | skipIfByte _ _ | skipUnlessByte _ _ | skipIfEqual _ _ | skipUnlessEqual _ _
  | skipIfPressed _ | skipUnlessPressed _ =>
      exact machine.skipIf_ambient delay sound generator _
  | draw origin height =>
      exact drawPixels_ambient (machine.setRegister flagRegister 0) delay sound generator origin _
  | _ => rfl

end Perform

/-- The generator is exchanged and everything else is kept. -/
def withGenerator (machine : Machine) (generator : MersenneTwister) : Machine :=
  { machine with generator := generator }

/-- No machine of the list executes the instruction that draws a random byte. -/
def Drawless (visited : List Machine) : Prop :=
  ∀ machine ∈ visited, ∀ x mask, machine.executing? ≠ some (.random x mask)

theorem drawless_append {first second : List Machine} :
    Drawless (first ++ second) ↔ Drawless first ∧ Drawless second :=
  List.forall_mem_append

section Generator

variable (machine : Machine) (generator : MersenneTwister)

/-- The timers may be touched, because they are the same on both sides. -/
theorem perform_withGenerator {instruction : Instruction}
    (undrawn : ∀ x mask, instruction ≠ .random x mask) :
    (machine.withGenerator generator).perform instruction =
      (machine.perform instruction).withGenerator generator := by
  have kept (detached : instruction.Detached) :=
    machine.perform_ambient id id (fun _ => generator) detached
  cases instruction with
  | random x mask => exact absurd rfl (undrawn x mask)
  | readDelay _ | setDelay _ | setSound _ => rfl
  | _ => exact kept trivial

theorem verdict_withGenerator (opcode : Opcode) :
    (machine.withGenerator generator).verdict opcode = machine.verdict opcode :=
  verdict_congr rfl rfl opcode

theorem step_withGenerator (undrawn : ∀ x mask, machine.executing? ≠ some (.random x mask)) :
    (machine.withGenerator generator).step = (machine.step).withGenerator generator := by
  have judged := machine.verdict_withGenerator generator machine.fetched
  refine @step_cases
    (fun next => (machine.withGenerator generator).step = next.withGenerator generator) machine
    ?idle ?unfetched ?refused ?performed
  case idle => exact @step_of_not_running (machine.withGenerator generator)
  case unfetched => exact @step_of_above (machine.withGenerator generator)
  case refused =>
    intro fault running inside refused
    exact @step_of_error (machine.withGenerator generator) running inside fault
      (judged.trans refused)
  case performed =>
    intro instruction running inside accepted
    have performed : (machine.withGenerator generator).step =
        (machine.advance.withGenerator generator).perform instruction :=
      @step_of_ok (machine.withGenerator generator) running inside instruction
        (judged.trans accepted)
    rw [performed]
    apply machine.advance.perform_withGenerator generator
    rintro x mask rfl
    exact undrawn x mask (executing?_eq_some.mpr ⟨running, inside, accepted⟩)

variable {machine}

theorem runSteps_withGenerator {count : Nat} (undrawn : Drawless (machine.trail count)) :
    (machine.withGenerator generator).runSteps count =
      (machine.runSteps count).withGenerator generator := by
  induction count generalizing machine with
  | zero => rfl
  | succ count inductionHypothesis =>
      have alike : (machine.withGenerator generator).running = machine.running := rfl
      rw [trail] at undrawn
      rw [runSteps, runSteps, alike]
      split
      · rename_i running
        rw [if_pos running] at undrawn
        obtain ⟨here, behind⟩ := List.forall_mem_cons.mp undrawn
        rw [machine.step_withGenerator generator here, inductionHypothesis behind]
      · rfl

theorem runFrame_withGenerator {speed : Int} (undrawn : Drawless (machine.trail speed.toNat)) :
    (machine.withGenerator generator).runFrame speed =
      (machine.runFrame speed).withGenerator generator := by
  have stepped := runSteps_withGenerator generator undrawn
  have alike : ((machine.runSteps speed.toNat).withGenerator generator).running =
      (machine.runSteps speed.toNat).running := rfl
  simp only [runFrame, stepped, alike]
  split <;> rfl

end Generator

end Machine

end Chip8
