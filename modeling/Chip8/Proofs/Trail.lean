import Chip8.Proofs.Cycle
import Chip8.Proofs.System

/-!
This file holds the trail of a play, which lists the machines that the play steps, also those in
the middle of a frame. What is said about the instructions that a play executes is said about the
machines on its trail.
-/

namespace Chip8

namespace Machine

/-- This is the instruction that the next step performs. A machine at rest, a failed fetch and a
refused opcode perform none. -/
def executing? (machine : Machine) : Option Instruction :=
  if machine.running ∧ machine.pc.toNat + 2 ≤ Memory.size then
    (machine.verdict machine.fetched).toOption
  else none

theorem executing?_eq_some {machine : Machine} {instruction : Instruction} :
    machine.executing? = some instruction ↔
      machine.running = true ∧ machine.pc.toNat + 2 ≤ Memory.size ∧
        machine.verdict machine.fetched = .ok instruction := by
  unfold executing?
  split
  · rename_i ready
    cases judged : machine.verdict machine.fetched <;> simp [ready, Except.toOption]
  · rename_i unready
    constructor
    · intro impossible
      simp at impossible
    · intro accepted
      exact absurd ⟨accepted.1, accepted.2.1⟩ unready

theorem step_of_executing {machine : Machine} {instruction : Instruction}
    (executes : machine.executing? = some instruction) :
    machine.step = machine.advance.perform instruction := by
  obtain ⟨running, inside, accepted⟩ := executing?_eq_some.mp executes
  exact step_of_ok running inside accepted

/-- The cycle assigns these places itself, whatever the instruction does. -/
def cyclePlaces : List Place :=
  [.pc, .halted, .fault, .faultAddress, .faultOpcode]

/-- Any other place is assigned by the instruction that is executed, or it is kept. -/
theorem content_step {machine : Machine} {place : Place} (outside : place ∉ cyclePlaces)
    (unassigned : ∀ instruction, machine.executing? = some instruction →
      place ∉ instruction.writes machine.advance) :
    machine.step.content place = machine.content place := by
  have cycled (faultAddress pc : UInt16) (halted : Bool) (fault : Option Fault)
      (faultOpcode : Opcode) :
      ({ machine with
          faultAddress := faultAddress, pc := pc, halted := halted, fault := fault,
          faultOpcode := faultOpcode }).content place = machine.content place := by
    cases place with
    | pc | halted | fault | faultAddress | faultOpcode => exact absurd (by decide) outside
    | _ => rfl
  refine @step_cases (fun next => next.content place = machine.content place) machine
    ?idle ?unfetched ?refused ?performed
  case idle => exact fun _ => rfl
  case unfetched => exact fun _ _ => cycled _ _ _ _ _
  case refused => exact fun _ _ _ _ => cycled _ _ _ _ _
  case performed =>
    intro instruction running inside accepted
    have executes := executing?_eq_some.mpr ⟨running, inside, accepted⟩
    exact (machine.advance.content_perform instruction (unassigned instruction executes)).trans
      (cycled _ _ _ _ _)

/-- The steps of a frame start from these machines. -/
def trail (machine : Machine) : Nat → List Machine
  | 0 => []
  | count + 1 => if machine.running then machine :: machine.step.trail count else []

theorem runSteps_add (machine : Machine) (first second : Nat) :
    machine.runSteps (first + second) = (machine.runSteps first).runSteps second := by
  induction first generalizing machine with
  | zero => rw [Nat.zero_add, runSteps]
  | succ first inductionHypothesis =>
      rw [Nat.succ_add]
      by_cases running : machine.running = true
      · rw [runSteps, if_pos running, runSteps, if_pos running, inductionHypothesis]
      · have resting : machine.running = false := by simpa using running
        simp only [runSteps_of_not_running resting]

theorem trail_add (machine : Machine) (first second : Nat) :
    machine.trail (first + second) =
      machine.trail first ++ (machine.runSteps first).trail second := by
  induction first generalizing machine with
  | zero => rw [Nat.zero_add, trail, runSteps, List.nil_append]
  | succ first inductionHypothesis =>
      rw [Nat.succ_add, trail, trail, runSteps]
      split
      · rw [inductionHypothesis, List.cons_append]
      · rename_i resting
        cases second <;> simp [trail, resting]

end Machine

/-- A property is kept along a list of machines when it can get lost only after a machine that is
not guarded. -/
def KeptAlong (Guard Holds : Machine → Prop) : List Machine → Prop
  | [] => True
  | machine :: rest => Holds machine ∧ (Guard machine → KeptAlong Guard Holds rest)

namespace KeptAlong

variable {Guard Holds : Machine → Prop}

theorem append {first second : List Machine} :
    KeptAlong Guard Holds (first ++ second) ↔
      KeptAlong Guard Holds first ∧
        ((∀ visited ∈ first, Guard visited) → KeptAlong Guard Holds second) := by
  induction first with
  | nil => simp [KeptAlong]
  | cons machine rest inductionHypothesis =>
      rw [List.cons_append, KeptAlong, KeptAlong, inductionHypothesis, List.forall_mem_cons]
      grind

/-- The property reaches a machine when every machine before it is guarded. -/
theorem holds {earlier later : List Machine} {machine : Machine}
    (kept : KeptAlong Guard Holds (earlier ++ machine :: later))
    (guarded : ∀ visited ∈ earlier, Guard visited) : Holds machine :=
  ((append.mp kept).2 guarded).1

/-- A property that no machine loses holds all along. -/
theorem forall_mem {visited : List Machine} (kept : KeptAlong (fun _ => True) Holds visited) :
    ∀ machine ∈ visited, Holds machine := by
  intro machine member
  obtain ⟨earlier, later, rfl⟩ := List.append_of_mem member
  exact kept.holds fun _ _ => trivial

/-- Only the last machine of a list may be exchanged without a look at its guard. -/
theorem exchange {earlier : List Machine} {last other : Machine}
    (kept : KeptAlong Guard Holds (earlier ++ [last])) (passed : Holds last → Holds other) :
    KeptAlong Guard Holds (earlier ++ [other]) :=
  append.mpr ⟨(append.mp kept).1, fun guarded => ⟨passed (kept.holds guarded), fun _ => trivial⟩⟩

end KeptAlong

theorem Machine.keptAlong_trail {Guard Holds : Machine → Prop}
    (stepKeeps : ∀ machine, Guard machine → Holds machine → Holds machine.step)
    (machine : Machine) (count : Nat) (holds : Holds machine) :
    KeptAlong Guard Holds (machine.trail count ++ [machine.runSteps count]) := by
  induction count generalizing machine with
  | zero => exact ⟨holds, fun _ => trivial⟩
  | succ count inductionHypothesis =>
      rw [trail, runSteps]
      split
      · exact ⟨holds, fun guarded =>
          inductionHypothesis machine.step (stepKeeps machine guarded holds)⟩
      · exact ⟨holds, fun _ => trivial⟩

namespace System

/-- A tick that comes too early steps no machine. -/
def moveTrail (system : System) : Move → List Machine
  | .step => [system.machine]
  | .frame => system.machine.trail system.scheduler.speed.toNat
  | .tick now =>
      if now - system.scheduler.last < system.scheduler.interval then []
      else system.machine.trail system.scheduler.speed.toNat
  | _ => []

/-- The trail of a play passes through its moves. -/
def trail (system : System) : List Move → List Machine
  | [] => []
  | move :: rest => system.moveTrail move ++ (system.move move).1.trail rest

section Kept

variable {Guard Holds : Machine → Prop}
  (stepKeeps : ∀ machine, Guard machine → Holds machine → Holds machine.step)
  (timersKeep : ∀ machine, Holds machine → Holds machine.tickTimers)
  (pressKeeps : ∀ machine key, Holds machine → Holds (machine.keyDown key))
  (releaseKeeps : ∀ machine key, Holds machine → Holds (machine.keyUp key))

include stepKeeps timersKeep

theorem keptAlong_frame (machine : Machine) (speed : Int) (holds : Holds machine) :
    KeptAlong Guard Holds (machine.trail speed.toNat ++ [machine.runFrame speed]) := by
  apply (Machine.keptAlong_trail stepKeeps machine speed.toNat holds).exchange
  intro stepped
  rw [Machine.runFrame]
  split
  · exact timersKeep _ stepped
  · exact stepped

include pressKeeps releaseKeeps

theorem keptAlong_move (system : System) (move : Move) (holds : Holds system.machine) :
    KeptAlong Guard Holds (system.moveTrail move ++ [(system.move move).1.machine]) := by
  have framed := keptAlong_frame stepKeeps timersKeep system.machine system.scheduler.speed holds
  cases move with
  | step => exact ⟨holds, fun guarded => ⟨stepKeeps _ guarded holds, fun _ => trivial⟩⟩
  | tickTimers => exact ⟨timersKeep _ holds, fun _ => trivial⟩
  | keyDown key => exact ⟨pressKeeps _ key holds, fun _ => trivial⟩
  | keyUp key => exact ⟨releaseKeeps _ key holds, fun _ => trivial⟩
  | setSpeed speed => exact ⟨holds, fun _ => trivial⟩
  | start now => exact ⟨holds, fun _ => trivial⟩
  | frame => exact framed
  | tick now =>
      rw [moveTrail, move_tick]
      split
      · exact ⟨holds, fun _ => trivial⟩
      · exact framed

/-- What every guarded step and every other operation keep is kept along a play. -/
theorem keptAlong_play (system : System) (moves : List Move) (holds : Holds system.machine) :
    KeptAlong Guard Holds (system.trail moves ++ [(system.play moves).1.machine]) := by
  induction moves generalizing system with
  | nil => exact ⟨holds, fun _ => trivial⟩
  | cons move rest inductionHypothesis =>
      have moved := keptAlong_move stepKeeps timersKeep pressKeeps releaseKeeps system move holds
      rw [trail, List.append_assoc]
      exact KeptAlong.append.mpr ⟨(KeptAlong.append.mp moved).1,
        fun guarded => inductionHypothesis (system.move move).1 (moved.holds guarded)⟩

end Kept

end System

end Chip8
