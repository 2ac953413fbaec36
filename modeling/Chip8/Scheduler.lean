import Chip8.Execution

/-!
This file holds the frame scheduler. A frame runs a bounded number of instructions, counts the
timers down once, and hands out a tone and a picture. Frames follow a clock, and late frames are
dropped.
-/

namespace Chip8

/-- The steps stop as soon as the machine does not run. -/
def Machine.runSteps (machine : Machine) : Nat → Machine
  | 0 => machine
  | count + 1 => if machine.running then machine.step.runSteps count else machine

/-- Timers count only the frames that end with the machine running. -/
def Machine.runFrame (machine : Machine) (speed : Int) : Machine :=
  let stepped := machine.runSteps speed.toNat
  if stepped.running then stepped.tickTimers else stepped

/-- Every frame gives the speaker one order. -/
inductive Tone
  | play (hertz : Nat)
  | stop
deriving DecidableEq

/-- The tone has a fixed pitch. -/
def toneHertz : Nat := 40

/-- A frame leaves the machine, one order for the speaker, and one picture. -/
structure Frame where
  machine : Machine
  tone : Tone
  picture : Display

/-- The tone sounds while the sound timer is positive, and the picture is the whole display. -/
def Frame.ofMachine (machine : Machine) : Frame where
  machine := machine
  tone := if 0 < machine.sound then .play toneHertz else .stop
  picture := machine.display

/-- Times are counted in nanoseconds. -/
structure Scheduler where
  speed : Int := 10
  interval : Int := 16666666
  last : Int := 0
  frames : Nat := 0
deriving DecidableEq

namespace Scheduler

def start (scheduler : Scheduler) (now : Int) : Scheduler :=
  { scheduler with last := now }

/-- A frame is processed without a look at the clock. -/
def frame (scheduler : Scheduler) (machine : Machine) : Scheduler × Frame :=
  ({ scheduler with frames := scheduler.frames + 1 },
    Frame.ofMachine (machine.runFrame scheduler.speed))

/-- The clock allows a frame when a full interval has passed since the last one. -/
def tick (scheduler : Scheduler) (machine : Machine) (now : Int) : Option (Scheduler × Frame) :=
  if now - scheduler.last < scheduler.interval then none
  else some ((scheduler.start now).frame machine)

end Scheduler

/-- More steps change nothing once the machine does not run. -/
theorem Machine.runSteps_of_not_running {machine : Machine} (idle : machine.running = false)
    (count : Nat) : machine.runSteps count = machine := by
  cases count with
  | zero => rfl
  | succ count => simp [runSteps, idle]

end Chip8
