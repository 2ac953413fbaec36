import Chip8.Proofs.FrameRun
import Mathlib.Data.List.Chain

/-!
This file holds the cadence of a clock. A tick is measured against the reading of the last tick that
was processed, so that frames are never closer than an interval. Late frames are not made up for.
-/

namespace Chip8

namespace System

/-- A tick processes one frame and remembers its reading, however long the gap has been, or it
changes nothing and gives out nothing. -/
structure Ticks (system : System) (latest now : Int) : Prop where
  allowed_iff : (system.move (.tick now)).2.isSome = true ↔
    latest + system.scheduler.interval ≤ now
  processed : latest + system.scheduler.interval ≤ now →
    system.move (.tick now) =
      (⟨system.machine.runFrame system.scheduler.speed,
          { system.scheduler with last := now, frames := system.scheduler.frames + 1 }⟩,
        some (Frame.ofMachine (system.machine.runFrame system.scheduler.speed)))
  refused : now < latest + system.scheduler.interval → system.move (.tick now) = (system, none)

/-- The readings are listed for which a tick gave out a frame. -/
def processed (system : System) : List Int → List Int
  | [] => []
  | now :: rest =>
      if (system.move (.tick now)).2.isSome then
        now :: (system.move (.tick now)).1.processed rest
      else (system.move (.tick now)).1.processed rest

/-- The frames of a run are listed in their order. -/
def framesOf (machine : Machine) (speed : Int) (count : Nat) : List Frame :=
  (List.range count).map fun earlier => Frame.ofMachine (machine.runFrames speed (earlier + 1))

/-- The readings follow one another at least an interval apart. -/
def Spaced (interval : Int) (readings : List Int) : Prop :=
  readings.IsChain fun earlier later => earlier + interval ≤ later

theorem framesOf_succ (machine : Machine) (speed : Int) (count : Nat) :
    framesOf machine speed (count + 1) =
      Frame.ofMachine (machine.runFrame speed) :: framesOf (machine.runFrame speed) speed count := by
  simp only [framesOf, List.range_succ_eq_map, List.map_cons, List.map_map]
  apply congrArg (List.cons _)
  apply List.map_congr_left
  intro earlier _
  exact congrArg Frame.ofMachine (machine.runFrames_succ speed (earlier + 1))

theorem ticks (system : System) (now : Int) : system.Ticks system.scheduler.last now := by
  have ticked := system.move_tick now
  by_cases early : now - system.scheduler.last < system.scheduler.interval
  · rw [if_pos early] at ticked
    constructor
    case allowed_iff =>
      rw [ticked]
      simp only [Option.isSome_none, Bool.false_eq_true, false_iff]
      omega
    case processed =>
      intro late
      omega
    case refused => exact fun _ => ticked
  · rw [if_neg early] at ticked
    constructor
    case allowed_iff =>
      rw [ticked]
      simp only [take, Option.isSome_some, true_iff]
      omega
    case processed => exact fun _ => ticked
    case refused =>
      intro refused
      omega

variable (system : System)

theorem processed_of_early {now : Int} (rest : List Int)
    (early : now < system.scheduler.last + system.scheduler.interval) :
    system.processed (now :: rest) = system.processed rest := by
  rw [processed, (system.ticks now).refused early]
  rfl

theorem processed_of_late {now : Int} (rest : List Int)
    (late : system.scheduler.last + system.scheduler.interval ≤ now) :
    system.processed (now :: rest) = now :: (system.move (.tick now)).1.processed rest := by
  rw [processed, if_pos ((system.ticks now).allowed_iff.mpr late)]

/-- Nothing counts but the number of processed readings and the last of them. -/
theorem play_ticks (readings : List Int) :
    system.play (readings.map .tick) =
      (⟨system.machine.runFrames system.scheduler.speed (system.processed readings).length,
          { system.scheduler with
            last := (system.processed readings).getLastD system.scheduler.last
            frames := system.scheduler.frames + (system.processed readings).length }⟩,
        framesOf system.machine system.scheduler.speed (system.processed readings).length) := by
  induction readings generalizing system with
  | nil => rfl
  | cons now rest inductionHypothesis =>
      rw [List.map_cons, play]
      by_cases late : system.scheduler.last + system.scheduler.interval ≤ now
      · rw [system.processed_of_late rest late, (system.ticks now).processed late]
        simp only [inductionHypothesis, List.length_cons, List.getLastD_cons,
          Machine.runFrames_succ, framesOf_succ, Option.toList_some, List.singleton_append]
        rw [Nat.add_assoc, Nat.add_comm 1]
      · have early := Int.lt_of_not_ge late
        rw [system.processed_of_early rest early]
        simp only [(system.ticks now).refused early, inductionHypothesis]
        rfl

/-- The first processed reading lies an interval behind the start as well. -/
theorem spaced_processed (readings : List Int) :
    Spaced system.scheduler.interval
      (system.scheduler.last :: system.processed readings) := by
  induction readings generalizing system with
  | nil => exact List.isChain_singleton _
  | cons now rest inductionHypothesis =>
      by_cases late : system.scheduler.last + system.scheduler.interval ≤ now
      · have next := inductionHypothesis (system.move (.tick now)).1
        rw [system.processed_of_late rest late]
        rw [(system.ticks now).processed late] at next ⊢
        exact List.isChain_cons_cons.mpr ⟨late, next⟩
      · rw [system.processed_of_early rest (Int.lt_of_not_ge late)]
        exact inductionHypothesis system

theorem Spaced.length_mul_le {interval first : Int} {readings : List Int}
    (spaced : Spaced interval (first :: readings)) :
    readings.length * interval ≤ readings.getLastD first - first := by
  induction readings generalizing first with
  | nil => simp
  | cons second rest inductionHypothesis =>
      obtain ⟨apart, others⟩ := List.isChain_cons_cons.mp spaced
      have behind := inductionHypothesis others
      rw [List.getLastD_cons, List.length_cons, Int.natCast_succ, Int.add_mul, Int.one_mul]
      omega

end System

/-- After any readings of the clock, a tick is allowed an interval behind the last processed one.
The processed readings are spaced by the interval, and the machine is the one after as many frames. -/
theorem frames_follow_clock (machine : Machine) (scheduler : Scheduler) (startTime : Int)
    (readings : List Int) :
    let started : System := ⟨machine, scheduler.start startTime⟩
    let used := started.processed readings
    let ended := started.play (readings.map .tick)
    (∀ now, ended.1.Ticks (used.getLastD startTime) now) ∧
      System.Spaced scheduler.interval (startTime :: used) ∧
      used.length * scheduler.interval ≤ used.getLastD startTime - startTime ∧
      ended =
        (⟨machine.runFrames scheduler.speed used.length,
            { scheduler with
              last := used.getLastD startTime, frames := scheduler.frames + used.length }⟩,
          System.framesOf machine scheduler.speed used.length) := by
  intro started used ended
  have reached : ended = _ := started.play_ticks readings
  have spaced : System.Spaced scheduler.interval (startTime :: used) :=
    started.spaced_processed readings
  refine ⟨?_, spaced, spaced.length_mul_le, reached⟩
  intro now
  have ticked := ended.1.ticks now
  rw [show ended.1.scheduler.last = used.getLastD startTime by rw [reached]; rfl] at ticked
  exact ticked

/-- A reading that goes back is refused, and a gap of eight intervals is worth one frame. -/
example (machine : Machine) :
    System.processed ⟨machine, { interval := 10 }⟩ [5, 10, 15, 100, 90, 110] = [10, 100, 110] := rfl

end Chip8
