import Chip8.Boot
import Chip8.Report
import Chip8.Scheduler

/-!
This file holds the run without a window: a bounded number of frames, a printed report of the
final machine, and an exit status.
-/

namespace Chip8

open Report Text

namespace Headless

/-- The run keeps the last picture and counts the frames with a tone. -/
structure Progress where
  scheduler : Scheduler
  machine : Machine
  picture : Display := Display.blank
  toneFrames : Nat := 0
deriving DecidableEq

namespace Progress

def toneCount : Tone → Nat
  | .play _ => 1
  | .stop => 0

def advance (progress : Progress) : Progress :=
  let (scheduler, frame) := progress.scheduler.frame progress.machine
  { scheduler := scheduler
    machine := frame.machine
    picture := frame.picture
    toneFrames := progress.toneFrames + toneCount frame.tone }

/-- The run ends early when the machine halts. -/
def run (progress : Progress) : Nat → Progress
  | 0 => progress
  | count + 1 => if progress.machine.halted then progress else progress.advance.run count

theorem run_of_halted {progress : Progress} (halted : progress.machine.halted = true)
    (count : Nat) : progress.run count = progress := by
  cases count with
  | zero => rfl
  | succ count => simp [run, halted]

end Progress

def countLine (progress : Progress) : ByteString :=
  ascii "frames=" ++ decimal progress.scheduler.frames ++
  ascii "  tone frames=" ++ decimal progress.toneFrames ++ ascii "\n"

/-- The printed report is complete even when the machine has halted. -/
def printout (progress : Progress) : ByteString :=
  pictureText progress.picture ++ stateLine progress.machine ++
    registerLines progress.machine ++ countLine progress ++ waitLine progress.machine

/-- A process leaves an exit status and two texts. -/
structure Outcome where
  status : Nat
  output : ByteString
  errors : ByteString
deriving DecidableEq

/-- A halted machine is a failure of its own. -/
def Progress.outcome (progress : Progress) : Outcome where
  status := if progress.machine.halted then 2 else 0
  output := printout progress
  errors := if progress.machine.halted then haltLine lowerDigit progress.machine else []

/-- The machine that a command line boots starts from a fresh machine. -/
def run (generator : MersenneTwister) (files : Rom.Files) (arguments : List ByteString) :
    Outcome :=
  match Options.parse {} arguments with
  | (_, some error) => ⟨1, [], error.report⟩
  | (options, none) =>
      match (Machine.fresh generator).boot files options with
      | (_, some error) => ⟨1, [], error.message options.romPath⟩
      | (machine, none) =>
          let start : Progress := { scheduler := { speed := options.speed }, machine := machine }
          (start.run options.frames.toNat).outcome

end Headless

end Chip8
