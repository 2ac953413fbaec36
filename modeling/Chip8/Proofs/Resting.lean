import Chip8.Proofs.System

/-!
This file holds machines at rest, which have halted or await a key. Steps and frames leave them
alone, and a key that completes no wait is only held.
-/

namespace Chip8

namespace Keypad

theorem set_above (keypad : Keypad) {key : UInt8} (above : ¬ key < 16) (down : Bool) :
    keypad.set key down = keypad := by
  have outside : 16 ≤ key.toNat := by
    rw [UInt8.lt_iff_toNat_lt] at above
    exact Nat.le_of_not_lt above
  simp only [set, Vector.setIfInBounds_eq_of_size_le outside]

/-- One key is held now, and every other key is as it was. -/
structure Gains (before after : Keypad) (key : UInt8) : Prop where
  held : after.isPressed key = true
  others : ∀ other ≠ key, after.isPressed other = before.isPressed other

theorem Gains.isPressed_eq {before after : Keypad} {key : UInt8} (gains : before.Gains after key)
    (query : UInt8) : after.isPressed query = (decide (query = key) || before.isPressed query) := by
  by_cases hit : query = key
  · simp [hit, gains.held]
  · simp [hit, gains.others query hit]

theorem gains_set (keypad : Keypad) {key : UInt8} (present : key < 16) :
    keypad.Gains (keypad.set key true) key where
  held := by
    rw [isPressed_set, if_pos ⟨rfl, UInt8.lt_iff_toNat_lt.mp present⟩]
  others other apart := by
    rw [isPressed_set, if_neg fun hit => apart hit.1.symm]

end Keypad

namespace Machine

theorem runFrame_of_not_running {machine : Machine} (resting : machine.running = false)
    (speed : Int) : machine.runFrame speed = machine := by
  simp [runFrame, runSteps_of_not_running resting, resting]

theorem keypad_keyDown (machine : Machine) (key : UInt8) :
    (machine.keyDown key).keypad = machine.keypad.set key true := by
  unfold keyDown
  dsimp only
  split
  · split <;> rfl
  · rename_i above
    exact (machine.keypad.set_above above true).symm

/-- A press is held, whether or not it completes a wait. -/
theorem gains_keyDown (machine : Machine) {key : UInt8} (present : key < 16) :
    machine.keypad.Gains (machine.keyDown key).keypad key := by
  rw [keypad_keyDown]
  exact machine.keypad.gains_set present

theorem keyDown_of_unheard {machine : Machine} {key : UInt8}
    (unheard : key < 16 → machine.mode = .running) :
    machine.keyDown key = { machine with keypad := machine.keypad.set key true } := by
  unfold keyDown
  dsimp only
  split
  · rename_i present
    simp only [unheard present]
  · rename_i above
    rw [machine.keypad.set_above above]

end Machine

namespace System

/-- Frames and steps find nothing to do, and a key may not complete a wait. -/
theorem machine_move_of_resting {system : System} (resting : system.machine.running = false)
    {move : Move} (untimed : move ≠ .tickTimers)
    (unheard : ∀ key, move = .keyDown key → key < 16 → system.machine.mode = .running) :
    (system.move move).1.machine =
      { system.machine with keypad := (system.move move).1.machine.keypad } := by
  have framed (scheduler : Scheduler) :
      (scheduler.frame system.machine).2.machine = system.machine :=
    Machine.runFrame_of_not_running resting scheduler.speed
  cases move with
  | step => simp only [System.move, Machine.step_of_not_running resting]
  | tickTimers => exact absurd rfl untimed
  | keyDown key => simp only [System.move, Machine.keyDown_of_unheard (unheard key rfl)]
  | keyUp key => rfl
  | setSpeed speed => rfl
  | start now => rfl
  | frame => simp only [System.move, take, framed]
  | tick now =>
      rw [move_tick]
      split
      · rfl
      · simp only [take, framed]

/-- A frame of a machine at rest is the frame of the machine as it stands. -/
theorem frame_move_of_resting {system : System} (resting : system.machine.running = false)
    {move : Move} {frame : Frame} (given : (system.move move).2 = some frame) :
    frame = Frame.ofMachine system.machine := by
  have framed (scheduler : Scheduler) :
      (scheduler.frame system.machine).2 = Frame.ofMachine system.machine :=
    congrArg Frame.ofMachine (Machine.runFrame_of_not_running resting scheduler.speed)
  cases move with
  | frame =>
      simp only [System.move, take, framed, Option.some.injEq] at given
      exact given.symm
  | tick now =>
      rw [move_tick] at given
      split at given
      · simp at given
      · simp only [take, framed, Option.some.injEq] at given
        exact given.symm
  | _ => simp [System.move] at given

theorem play_of_resting {system : System} (resting : system.machine.running = false)
    {moves : List Move} (untimed : Move.tickTimers ∉ moves)
    (unheard : ∀ key, Move.keyDown key ∈ moves → key < 16 → system.machine.mode = .running) :
    (system.play moves).1.machine =
        { system.machine with keypad := (system.play moves).1.machine.keypad } ∧
      ∀ frame ∈ (system.play moves).2,
        frame.picture = system.machine.display ∧
          frame.tone = (Frame.ofMachine system.machine).tone := by
  induction moves generalizing system with
  | nil => exact ⟨rfl, by simp [play_nil]⟩
  | cons move rest inductionHypothesis =>
      obtain ⟨first, others⟩ := not_or.mp (mt List.mem_cons.mpr untimed)
      have moved := machine_move_of_resting resting (Ne.symm first)
        (fun key same => unheard key (same ▸ List.mem_cons_self))
      -- Neither the halt flag nor the mode has changed, so the machine still rests.
      have sameMode : (system.move move).1.machine.mode = system.machine.mode := by rw [moved]
      have stillResting : (system.move move).1.machine.running = false := by
        rw [moved]
        exact resting
      obtain ⟨played, shown⟩ := inductionHypothesis stillResting others fun key later present =>
        sameMode.trans (unheard key (List.mem_cons_of_mem move later) present)
      constructor
      · rw [machine_play_cons, played, moved]
      · intro frame member
        rw [frames_play_cons, List.mem_append, Option.mem_toList] at member
        rcases member with given | later
        · rw [frame_move_of_resting resting given]
          exact ⟨rfl, rfl⟩
        · have same := shown frame later
          rw [moved] at same
          exact same

end System

end Chip8
