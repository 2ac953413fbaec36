import Chip8.Proofs.ControlState
import Chip8.Proofs.Resting

/-!
This file holds the finality of a halt. A machine that has halted awaits no key, so that steps,
frames and key events find nothing to do except to note which keys are held.
-/

namespace Chip8

namespace Machine

/-- A stopped machine has halted and does not wait for a key either. -/
structure Stopped (machine : Machine) : Prop where
  halted : machine.halted = true
  mode : machine.mode = .running

theorem Controlled.stopped {machine : Machine} (controlled : machine.Controlled)
    (halted : machine.halted = true) : machine.Stopped where
  halted := halted
  mode := by
    cases mode : machine.mode with
    | running => rfl
    | awaitingKey => exact absurd ⟨halted, mode⟩ controlled.exclusive

theorem Stopped.not_running {machine : Machine} (stopped : machine.Stopped) :
    machine.running = false := by
  simp [running, stopped.halted]

end Machine

/-- No key completes a wait of a stopped machine, so that it stays at rest. -/
theorem System.play_of_stopped {system : System} (stopped : system.machine.Stopped)
    {moves : List Move} (untimed : Move.tickTimers ∉ moves) :
    (system.play moves).1.machine =
        { system.machine with keypad := (system.play moves).1.machine.keypad } ∧
      ∀ frame ∈ (system.play moves).2,
        frame.picture = system.machine.display ∧
          frame.tone = (Frame.ofMachine system.machine).tone :=
  play_of_resting stopped.not_running untimed fun _ _ _ => stopped.mode

/-- Nothing happens to a reachable machine after it has halted, except that keys are held and
released. Its frames show one picture and give one order to the speaker. -/
theorem halt_is_final (system : System) (reachable : system.Reachable)
    (halted : system.machine.halted = true) (moves : List Move)
    (untimed : Move.tickTimers ∉ moves) :
    (system.play moves).1.machine =
        { system.machine with keypad := (system.play moves).1.machine.keypad } ∧
      ∀ frame ∈ (system.play moves).2,
        frame.picture = system.machine.display ∧
          frame.tone = if 0 < system.machine.sound then .play toneHertz else .stop := by
  obtain ⟨machine, scheduler, operations, rfl⟩ := reachable
  have controlled := System.controlled_history ⟨machine.reset, scheduler⟩ operations
    (Machine.Controlled.reset machine)
  exact System.play_of_stopped (controlled.stopped halted) untimed

/-- After the lone return the speaker goes on, because the timers stand still. -/
theorem halt_is_final_for_lone_return :
    let halted := System.history ⟨(Machine.fresh (MersenneTwister.seeded 0)).reset, {}⟩
      [.load loneReturn 0x200, .move .frame]
    ∀ frame ∈ (halted.play [.keyDown 3, .frame, .step, .tick 100]).2,
      frame.picture = halted.machine.display ∧ frame.tone = .play toneHertz := by
  intro halted frame member
  have reachable : halted.Reachable := ⟨_, _, _, rfl⟩
  obtain ⟨stopped, sounding⟩ : halted.machine.halted = true ∧ 0 < halted.machine.sound := by
    decide +kernel
  obtain ⟨_, shown⟩ := halt_is_final halted reachable stopped
    [.keyDown 3, .frame, .step, .tick 100] (by decide)
  have given := shown frame member
  rwa [if_pos sounding] at given

end Chip8
