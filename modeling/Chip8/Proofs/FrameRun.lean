import Chip8.Proofs.Ambient
import Chip8.Proofs.Resting
import Mathlib.Order.Nat

/-!
This file holds runs of frames at one speed. A halted machine stays as it is, so that a run stands
still from its first halt on. The generator has no part in a run that draws no random byte.
-/

namespace Chip8

namespace Machine

/-- The frames of a run follow one another at the same speed. -/
def runFrames (machine : Machine) (speed : Int) : Nat → Machine
  | 0 => machine
  | count + 1 => (machine.runFrames speed count).runFrame speed

/-- The machine has halted after this frame, and before it the machine had not halted yet. -/
structure HaltsAt (machine : Machine) (speed : Int) (frame : Nat) : Prop where
  halted : (machine.runFrames speed frame).halted = true
  unhalted : ∀ earlier < frame, (machine.runFrames speed earlier).halted = false

/-- The frames of a run are counted that leave the sound timer above zero. -/
def toneFrames (machine : Machine) (speed : Int) (count : Nat) : Nat :=
  (List.range count).countP fun earlier => 0 < (machine.runFrames speed (earlier + 1)).sound

variable {machine : Machine} {speed : Int}

theorem runFrames_succ (machine : Machine) (speed : Int) (count : Nat) :
    machine.runFrames speed (count + 1) = (machine.runFrame speed).runFrames speed count := by
  induction count with
  | zero => rfl
  | succ count inductionHypothesis =>
      rw [runFrames, inductionHypothesis, runFrames]

theorem runFrame_of_halted (halted : machine.halted = true) (speed : Int) :
    machine.runFrame speed = machine :=
  runFrame_of_not_running (by simp [running, halted]) speed

/-- A run stands still behind a halt. -/
theorem runFrames_of_halted {first later : Nat}
    (halted : (machine.runFrames speed first).halted = true) (behind : first ≤ later) :
    machine.runFrames speed later = machine.runFrames speed first := by
  induction later, behind using Nat.le_induction with
  | base => rfl
  | succ later _ inductionHypothesis =>
      rw [runFrames, inductionHypothesis, runFrame_of_halted halted]

theorem unhalted_of_unhalted {earlier later : Nat}
    (unhalted : (machine.runFrames speed later).halted = false) (before : earlier ≤ later) :
    (machine.runFrames speed earlier).halted = false := by
  rw [← Bool.not_eq_true]
  intro halted
  rw [runFrames_of_halted halted before, halted] at unhalted
  exact Bool.noConfusion unhalted

/-- A run that has halted has a first halt. -/
theorem exists_haltsAt {count : Nat} (halted : (machine.runFrames speed count).halted = true) :
    ∃ frame ≤ count, machine.HaltsAt speed frame := by
  have reached : ∃ frame, (machine.runFrames speed frame).halted = true := ⟨count, halted⟩
  refine ⟨Nat.find reached, Nat.find_min' reached halted, Nat.find_spec reached, ?_⟩
  intro earlier before
  simpa using Nat.find_min reached before

theorem toneFrames_succ (machine : Machine) (speed : Int) (count : Nat) :
    machine.toneFrames speed (count + 1) =
      machine.toneFrames speed count +
        if 0 < (machine.runFrames speed (count + 1)).sound then 1 else 0 := by
  simp [toneFrames, List.range_succ, List.countP_cons]

/-- Two machines run alike when they differ in nothing but their generators. -/
def RunsAlike (machine other : Machine) (speed : Int) (count : Nat) : Prop :=
  ∀ earlier ≤ count, ∃ generator,
    other.runFrames speed earlier = (machine.runFrames speed earlier).withGenerator generator

theorem runsAlike_of_drawless {scheduler : Scheduler} {count : Nat} (generator : MersenneTwister)
    (undrawn : Drawless (System.trail ⟨machine, scheduler⟩ (.replicate count .frame))) :
    machine.RunsAlike (machine.withGenerator generator) scheduler.speed count := by
  have each (earlier : Nat) (within : earlier ≤ count) :
      (machine.withGenerator generator).runFrames scheduler.speed earlier =
        (machine.runFrames scheduler.speed earlier).withGenerator generator := by
    induction count generalizing machine scheduler earlier with
    | zero =>
        obtain rfl := Nat.le_zero.mp within
        rfl
    | succ count inductionHypothesis =>
        obtain ⟨here, behind⟩ := drawless_append.mp undrawn
        cases earlier with
        | zero => rfl
        | succ earlier =>
            rw [runFrames_succ, runFrames_succ, runFrame_withGenerator generator here]
            have follows := @inductionHypothesis (machine.runFrame scheduler.speed)
              { scheduler with frames := scheduler.frames + 1 } behind earlier
            exact follows (Nat.le_of_succ_le_succ within)
  exact fun earlier within => ⟨generator, each earlier within⟩

namespace RunsAlike

variable {other : Machine} {count : Nat}

theorem refl (machine : Machine) (speed : Int) (count : Nat) :
    machine.RunsAlike machine speed count :=
  fun _ _ => ⟨_, rfl⟩

theorem haltsAt {frame : Nat} (alike : machine.RunsAlike other speed count) (within : frame ≤ count)
    (halts : machine.HaltsAt speed frame) : other.HaltsAt speed frame := by
  constructor
  · obtain ⟨generator, same⟩ := alike frame within
    rw [same]
    exact halts.halted
  · intro earlier before
    obtain ⟨generator, same⟩ := alike earlier (by omega)
    rw [same]
    exact halts.unhalted earlier before

theorem toneFrames {frame : Nat} (alike : machine.RunsAlike other speed count)
    (within : frame ≤ count) : other.toneFrames speed frame = machine.toneFrames speed frame := by
  apply List.countP_congr
  intro earlier member
  obtain ⟨generator, same⟩ := alike (earlier + 1) (by rw [List.mem_range] at member; omega)
  rw [same]
  rfl

end RunsAlike

end Machine

end Chip8
