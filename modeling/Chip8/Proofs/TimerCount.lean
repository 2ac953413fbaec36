import Chip8.Proofs.Trail
import Mathlib.Logic.Function.Iterate

/-!
This file holds the count of the timers. Every frame that ends with the machine running counts both
timers down by one. Apart from that, each timer is reached by one instruction and by nothing else.
-/

namespace Chip8

/-- The two timers are counted alike. -/
inductive Timer
  | delay
  | sound
deriving DecidableEq

namespace Timer

def place : Timer → Place
  | .delay => .delay
  | .sound => .sound

def value : Timer → Machine → UInt8
  | .delay, machine => machine.delay
  | .sound, machine => machine.sound

/-- This instruction sets the timer to the value of a register. -/
def setter : Timer → Register → Instruction
  | .delay, x => .setDelay x
  | .sound, x => .setSound x

variable (timer : Timer)

theorem value_congr {first second : Machine}
    (same : first.content timer.place = second.content timer.place) :
    timer.value first = timer.value second := by
  cases timer <;> exact same

theorem place_writes {instruction : Instruction} (machine : Machine)
    (other : ∀ x, instruction ≠ timer.setter x) : timer.place ∉ instruction.writes machine := by
  cases timer with
  | delay =>
      cases instruction with
      | setDelay x => exact absurd rfl (other x)
      | _ => simp [place, Instruction.writes, memoryBlock]
  | sound =>
      cases instruction with
      | setSound x => exact absurd rfl (other x)
      | _ => simp [place, Instruction.writes, memoryBlock]

/-- No machine of the list executes the instruction that sets the timer. -/
def Unset (visited : List Machine) : Prop :=
  ∀ machine ∈ visited, ∀ x, machine.executing? ≠ some (timer.setter x)

/-- A halt and a wait do not reach a timer either. -/
theorem value_step {machine : Machine} (unset : ∀ x, machine.executing? ≠ some (timer.setter x)) :
    timer.value machine.step = timer.value machine := by
  apply timer.value_congr
  apply Machine.content_step (by cases timer <;> decide)
  intro instruction executes
  apply timer.place_writes
  intro x same
  exact unset x (same ▸ executes)

theorem value_runSteps {machine : Machine} {count : Nat}
    (unset : timer.Unset (machine.trail count)) :
    timer.value (machine.runSteps count) = timer.value machine := by
  have kept : KeptAlong (fun visited => ∀ x, visited.executing? ≠ some (timer.setter x))
      (fun visited => timer.value visited = timer.value machine)
      (machine.trail count ++ [machine.runSteps count]) := by
    refine Machine.keptAlong_trail ?_ machine count rfl
    intro visited unset same
    exact (timer.value_step unset).trans same
  exact kept.holds unset

theorem value_tickTimers (machine : Machine) :
    (timer.value machine.tickTimers).toNat = (timer.value machine).toNat - 1 := by
  cases timer with
  | delay => exact Machine.countDown_toNat machine.delay
  | sound => exact Machine.countDown_toNat machine.sound

theorem value_keyDown (machine : Machine) (key : UInt8) :
    timer.value (machine.keyDown key) = timer.value machine := by
  rw [machine.keyDown_eq key]
  cases timer <;> rfl

end Timer

namespace Machine

/-- The steps behind a halt or a wait change nothing, so that the early end of a frame is not
seen. -/
theorem runSteps_eq_iterate (machine : Machine) (count : Nat) :
    machine.runSteps count = Machine.step^[count] machine := by
  induction count generalizing machine with
  | zero => rfl
  | succ count inductionHypothesis =>
      rw [runSteps]
      split
      · rw [inductionHypothesis, Function.iterate_succ_apply]
      · rename_i resting
        have stays : machine.step = machine := step_of_not_running (by simpa using resting)
        exact (Function.iterate_fixed stays (count + 1)).symm

/-- The count of the timers does not decide whether the machine runs. -/
theorem running_runFrame (machine : Machine) (speed : Int) :
    (machine.runFrame speed).running = (machine.runSteps speed.toNat).running := by
  simp only [runFrame]
  split <;> rfl

end Machine

/-- Frames are counted that end with the machine running. -/
def Frame.runningCount (frames : List Frame) : Nat :=
  frames.countP fun frame => frame.machine.running

namespace Timer

variable (timer : Timer)

theorem value_runFrame {machine : Machine} {speed : Int}
    (unset : timer.Unset (machine.trail speed.toNat)) :
    (timer.value (machine.runFrame speed)).toNat =
      (timer.value machine).toNat -
        Frame.runningCount [Frame.ofMachine (machine.runFrame speed)] := by
  have stepped := timer.value_runSteps unset
  have ends : (Frame.ofMachine (machine.runFrame speed)).machine.running =
      (machine.runSteps speed.toNat).running := machine.running_runFrame speed
  simp only [Frame.runningCount, List.countP_singleton, ends]
  rw [Machine.runFrame]
  split
  · rw [timer.value_tickTimers, stepped]
  · rw [stepped, Nat.sub_zero]

theorem value_move {system : System} {move : Move} (untimed : move ≠ .tickTimers)
    (unset : timer.Unset (system.moveTrail move)) :
    (timer.value (system.move move).1.machine).toNat =
      (timer.value system.machine).toNat - Frame.runningCount (system.move move).2.toList := by
  cases move with
  | step => exact congrArg UInt8.toNat (timer.value_step (unset system.machine List.mem_cons_self))
  | tickTimers => exact absurd rfl untimed
  | keyDown key => exact congrArg UInt8.toNat (timer.value_keyDown system.machine key)
  | keyUp key => cases timer <;> rfl
  | setSpeed speed => rfl
  | start now => rfl
  | frame => exact timer.value_runFrame unset
  | tick now =>
      rw [System.moveTrail] at unset
      rw [System.move_tick]
      split
      · rfl
      · rename_i late
        rw [if_neg late] at unset
        exact timer.value_runFrame unset

/-- A play counts a timer down by the frames that end with the machine running. -/
theorem value_play {system : System} {moves : List Move} (untimed : Move.tickTimers ∉ moves)
    (unset : timer.Unset (system.trail moves)) :
    (timer.value (system.play moves).1.machine).toNat =
      (timer.value system.machine).toNat - Frame.runningCount (system.play moves).2 := by
  induction moves generalizing system with
  | nil => rfl
  | cons move rest inductionHypothesis =>
      obtain ⟨first, others⟩ := not_or.mp (mt List.mem_cons.mpr untimed)
      obtain ⟨here, behind⟩ := List.forall_mem_append.mp unset
      have moved := timer.value_move (Ne.symm first) here
      have played := inductionHypothesis others behind
      rw [System.machine_play_cons, played, moved, System.frames_play_cons, Nat.sub_sub]
      simp only [Frame.runningCount, List.countP_append]

end Timer

/-- A frame is as many steps as its speed says, and one count of the timers if the machine runs then.
Over any frames and key events, a timer that is not set by the program goes down by the number of
frames that ended with the machine running, and it stops at zero. -/
theorem timers_count_running_frames :
    (∀ (scheduler : Scheduler) (machine : Machine),
      let stepped := Machine.step^[scheduler.speed.toNat] machine
      let framed := if stepped.running then stepped.tickTimers else stepped
      scheduler.frame machine =
        ({ scheduler with frames := scheduler.frames + 1 },
          { machine := framed
            tone := if 0 < framed.sound then .play 40 else .stop
            picture := framed.display })) ∧
      ∀ (timer : Timer) (system : System) (moves : List Move), Move.tickTimers ∉ moves →
        timer.Unset (system.trail moves) →
        (timer.value (system.play moves).1.machine).toNat =
          (timer.value system.machine).toNat - Frame.runningCount (system.play moves).2 := by
  constructor
  · intro scheduler machine stepped framed
    have runs : machine.runFrame scheduler.speed = framed := by
      simp only [Machine.runFrame, machine.runSteps_eq_iterate]
      rfl
    rw [← runs]
    rfl
  · intro timer system moves untimed unset
    exact timer.value_play untimed unset

/-- The first frame ends in a wait and is not counted. The frame behind the key press is counted, and
so is the last one, which has no step at all. -/
theorem timers_count_running_frames_around_wait :
    let machine := { Machine.fresh (MersenneTwister.seeded 0) with
      delay := 5, sound := 1
      memory := Memory.zeroed.writeAll 0x200 [0x73, 0x01, 0xF4, 0x0A, 0x12, 0x00] }
    let ended := (System.play ⟨machine, { speed := 2 }⟩
      [.frame, .keyDown 7, .frame, .setSpeed (-3), .frame]).1.machine
    ended.delay.toNat = 3 ∧ ended.sound.toNat = 0 := by
  intro machine ended
  let system : System := ⟨machine, { speed := 2 }⟩
  let moves : List Move := [.frame, .keyDown 7, .frame, .setSpeed (-3), .frame]
  have counted : Frame.runningCount (system.play moves).2 = 2 := by decide +kernel
  have unset : Timer.delay.Unset (system.trail moves) ∧ Timer.sound.Unset (system.trail moves) := by
    unfold Timer.Unset
    decide +kernel
  have law := timers_count_running_frames.2
  have delay := law .delay system moves (by decide) unset.1
  have sound := law .sound system moves (by decide) unset.2
  rw [counted] at delay sound
  exact ⟨delay, sound⟩

end Chip8
