import Chip8.Boot
import Chip8.Scheduler

/-!
This file holds what can happen to a machine. A machine in play steps, counts its timers, sees key
events and runs frames; between plays it is also reset, seeded, loaded and booted.
-/

namespace Chip8

/-- A system is a machine with its scheduler. -/
structure System where
  machine : Machine
  scheduler : Scheduler

/-- A move happens to a machine in play. The speed and the clock are chosen freely. -/
inductive Move
  | step
  | tickTimers
  | keyDown (key : UInt8)
  | keyUp (key : UInt8)
  | setSpeed (speed : Int)
  | start (now : Int)
  | frame
  | tick (now : Int)
deriving DecidableEq

namespace System

/-- A frame leaves its machine and its scheduler in the system. -/
def take (result : Scheduler × Frame) : System × Option Frame :=
  (⟨result.2.machine, result.1⟩, some result.2)

/-- A move gives out at most one frame. -/
def move (system : System) : Move → System × Option Frame
  | .step => ({ system with machine := system.machine.step }, none)
  | .tickTimers => ({ system with machine := system.machine.tickTimers }, none)
  | .keyDown key => ({ system with machine := system.machine.keyDown key }, none)
  | .keyUp key => ({ system with machine := system.machine.keyUp key }, none)
  | .setSpeed speed => ({ system with scheduler := { system.scheduler with speed := speed } }, none)
  | .start now => ({ system with scheduler := system.scheduler.start now }, none)
  | .frame => take (system.scheduler.frame system.machine)
  | .tick now =>
      match system.scheduler.tick system.machine now with
      | none => (system, none)
      | some result => take result

/-- The frames of a play are listed in their order. -/
def play (system : System) : List Move → System × List Frame
  | [] => (system, [])
  | move :: rest =>
      let (next, frame) := system.move move
      let (final, frames) := next.play rest
      (final, frame.toList ++ frames)

end System

/-- An operation is a move or one of the ways to begin anew. -/
inductive Operation
  | reset
  | seed (value : UInt32)
  | loadFont
  | load (program : List UInt8) (origin : UInt16)
  | boot (files : Rom.Files) (options : Options)
  | move (move : Move)

/-- Every path leads to a file with this program. -/
def Rom.Files.holding (program : List UInt8) : Rom.Files :=
  fun _ => some (.regular program)

/-- The program starts the speaker and then returns from a routine that was never called. -/
def loneReturn : List UInt8 :=
  [0x62, 0x05, 0xF2, 0x18, 0x00, 0xEE]

namespace System

/-- A refused program and a failed boot leave what they leave, and the history goes on. -/
def operate (system : System) : Operation → System
  | .reset => { system with machine := system.machine.reset }
  | .seed value => { system with machine := system.machine.seed value }
  | .loadFont => { system with machine := system.machine.loadFont }
  | .load program origin =>
      { system with machine := (system.machine.load? program origin).getD system.machine }
  | .boot files options => { system with machine := (system.machine.boot files options).1 }
  | .move move => (system.move move).1

def history (system : System) (operations : List Operation) : System :=
  operations.foldl operate system

/-- A reachable system has a history that starts with a machine that was just reset. -/
def Reachable (system : System) : Prop :=
  ∃ machine scheduler operations, history ⟨Machine.reset machine, scheduler⟩ operations = system

variable (system : System)

theorem play_nil : system.play [] = (system, []) := rfl

theorem machine_play_cons (move : Move) (rest : List Move) :
    (system.play (move :: rest)).1 = ((system.move move).1.play rest).1 := rfl

theorem frames_play_cons (move : Move) (rest : List Move) :
    (system.play (move :: rest)).2 =
      (system.move move).2.toList ++ ((system.move move).1.play rest).2 := rfl

/-- A tick that comes too early changes nothing, and a later one is a frame. -/
theorem move_tick (now : Int) :
    system.move (.tick now) =
      if now - system.scheduler.last < system.scheduler.interval then (system, none)
      else take ((system.scheduler.start now).frame system.machine) := by
  by_cases early : now - system.scheduler.last < system.scheduler.interval
  · simp only [System.move, Scheduler.tick, if_pos early]
  · simp only [System.move, Scheduler.tick, if_neg early]

end System

/-- A load that succeeds reaches the memory and nothing else. -/
theorem Machine.load?_eq {machine loaded : Machine} {program : List UInt8} {origin : UInt16}
    (accepted : machine.load? program origin = some loaded) :
    ∃ memory, loaded = { machine with memory := memory } := by
  unfold Machine.load? at accepted
  split at accepted
  · exact ⟨_, (Option.some.inj accepted).symm⟩
  · simp at accepted

/-- What every step and every timer tick keep is kept by a frame. -/
theorem Machine.runFrame_keeps {Holds : Machine → Prop}
    (stepKeeps : ∀ machine, Holds machine → Holds machine.step)
    (timersKeep : ∀ machine, Holds machine → Holds machine.tickTimers)
    (machine : Machine) (speed : Int) (holds : Holds machine) :
    Holds (machine.runFrame speed) := by
  have stepsKeep (count : Nat) (machine : Machine) (holds : Holds machine) :
      Holds (machine.runSteps count) := by
    induction count generalizing machine with
    | zero => exact holds
    | succ count inductionHypothesis =>
        rw [runSteps]
        split
        · exact inductionHypothesis machine.step (stepKeeps machine holds)
        · exact holds
  have stepped := stepsKeep speed.toNat machine holds
  simp only [runFrame]
  split
  · exact timersKeep _ stepped
  · exact stepped

namespace System

/-- What the machine's own operations keep is kept by every move. -/
theorem move_keeps {Holds : Machine → Prop}
    (stepKeeps : ∀ machine, Holds machine → Holds machine.step)
    (timersKeep : ∀ machine, Holds machine → Holds machine.tickTimers)
    (pressKeeps : ∀ machine key, Holds machine → Holds (machine.keyDown key))
    (releaseKeeps : ∀ machine key, Holds machine → Holds (machine.keyUp key))
    (system : System) (move : Move) (holds : Holds system.machine) :
    Holds (system.move move).1.machine := by
  have frameKeeps (scheduler : Scheduler) : Holds (scheduler.frame system.machine).2.machine :=
    Machine.runFrame_keeps stepKeeps timersKeep system.machine scheduler.speed holds
  cases move with
  | step => exact stepKeeps _ holds
  | tickTimers => exact timersKeep _ holds
  | keyDown key => exact pressKeeps _ key holds
  | keyUp key => exact releaseKeeps _ key holds
  | setSpeed speed => exact holds
  | start now => exact holds
  | frame => exact frameKeeps system.scheduler
  | tick now =>
      rw [move_tick]
      split
      · exact holds
      · exact frameKeeps (system.scheduler.start now)

/-- What every move keeps is kept by a play. -/
theorem play_keeps {Holds : Machine → Prop} {moves : List Move}
    (moveKeeps : ∀ (system : System) (move : Move), move ∈ moves → Holds system.machine →
      Holds (system.move move).1.machine)
    (system : System) (holds : Holds system.machine) :
    Holds (system.play moves).1.machine := by
  induction moves generalizing system with
  | nil => exact holds
  | cons move rest inductionHypothesis =>
      have next := moveKeeps system move List.mem_cons_self holds
      exact inductionHypothesis
        (fun system other member => moveKeeps system other (List.mem_cons_of_mem move member))
        (system.move move).1 next

/-- What the moves and a new generator keep, and what does not depend on the memory, is kept by
every operation, since a boot begins with a reset. -/
theorem operate_keeps {Holds : Machine → Prop}
    (resetHolds : ∀ machine : Machine, Holds machine.reset)
    (seedKeeps : ∀ (machine : Machine) (value : UInt32), Holds machine → Holds (machine.seed value))
    (memoryKeeps : ∀ (machine : Machine) (memory : Memory), Holds machine →
      Holds { machine with memory := memory })
    (moveKeeps : ∀ (system : System) (move : Move), Holds system.machine →
      Holds (system.move move).1.machine)
    (system : System) (operation : Operation) (holds : Holds system.machine) :
    Holds (system.operate operation).machine := by
  have loadKeeps {machine loaded : Machine} {program : List UInt8} {origin : UInt16}
      (holds : Holds machine) (accepted : machine.load? program origin = some loaded) :
      Holds loaded := by
    obtain ⟨memory, rfl⟩ := Machine.load?_eq accepted
    exact memoryKeeps machine memory holds
  have restartHolds (machine : Machine) (seed : Option UInt32) : Holds (machine.restart seed) := by
    cases seed with
    | none => exact resetHolds machine
    | some value => exact seedKeeps machine.reset value (resetHolds machine)
  cases operation with
  | reset => exact resetHolds system.machine
  | seed value => exact seedKeeps system.machine value holds
  | loadFont => exact memoryKeeps system.machine _ holds
  | load program origin =>
      simp only [operate]
      cases accepted : system.machine.load? program origin with
      | none => exact holds
      | some loaded => exact loadKeeps holds accepted
  | boot files options =>
      simp only [operate, Machine.boot]
      split
      · exact holds
      · split
        · exact restartHolds system.machine options.seed
        · rename_i loaded accepted
          exact loadKeeps (restartHolds system.machine options.seed) accepted
  | move move => exact moveKeeps system move holds

/-- What every operation keeps is kept by a history. -/
theorem history_keeps {Holds : Machine → Prop}
    (operationKeeps : ∀ (system : System) (operation : Operation), Holds system.machine →
      Holds (system.operate operation).machine)
    (system : System) (operations : List Operation) (holds : Holds system.machine) :
    Holds (system.history operations).machine := by
  induction operations generalizing system with
  | nil => exact holds
  | cons operation rest inductionHypothesis =>
      exact inductionHypothesis (system.operate operation)
        (operationKeeps system operation holds)

end System

end Chip8
