import Chip8.Proofs.Resting
import Chip8.Proofs.Trail

/-!
This file holds the wait for a key. A machine that awaits a key stays as it is until a key of the
keypad is pressed. That press completes the wait, and later presses are only held.
-/

namespace Chip8

/-- These moves leave a waiting machine alone. A key of the keypad would complete the wait, and the
timers could still be counted down from outside. -/
def Move.Unheard : Move → Prop
  | .tickTimers => False
  | .keyDown key => ¬ key < 16
  | _ => True

theorem Instruction.mode_writes {instruction : Instruction} (machine : Machine)
    (other : ∀ x, instruction ≠ .awaitKey x) : Place.mode ∉ instruction.writes machine := by
  cases instruction with
  | awaitKey x => exact absurd rfl (other x)
  | _ => simp [writes, memoryBlock]

namespace Machine

variable {machine : Machine} {x : Register}

section Wait

variable (executes : machine.executing? = some (.awaitKey x))

include executes

theorem step_of_awaitKey :
    machine.step =
      { machine with
        faultAddress := machine.pc, pc := machine.pc + 2, mode := .awaitingKey,
        waitRegister := Register.toByte x } :=
  step_of_executing executes

theorem not_running_of_awaitKey : machine.step.running = false := by
  simp [step_of_awaitKey executes, running]

/-- The rest of the frame and its timer tick are dropped. -/
theorem runFrame_of_awaitKey {start : Machine} {speed : Int} {executed : Nat}
    (within : executed < speed.toNat) (reached : start.runSteps executed = machine) :
    start.runFrame speed = machine.step := by
  obtain ⟨rest, split⟩ := Nat.exists_eq_add_of_lt within
  have resting := not_running_of_awaitKey executes
  have started : machine.running = true := (executing?_eq_some.mp executes).1
  have stepped : start.runSteps speed.toNat = machine.step := by
    rw [split, Nat.add_assoc, runSteps_add, reached, runSteps, if_pos started,
      runSteps_of_not_running resting]
  simp [runFrame, stepped, resting]

end Wait

theorem storeAt_toByte (machine : Machine) (x : Register) (value : UInt8) :
    machine.storeAt (Register.toByte x) value = machine.setRegister x value :=
  congrArg (fun registers => { machine with registers := registers })
    (setIfInBounds_of_lt machine.registers value x.isLt)

/-- The key goes to the register of the wait. -/
theorem keyDown_of_waiting {key : UInt8} (waiting : machine.mode = .awaitingKey)
    (target : machine.waitRegister = Register.toByte x) (present : key < 16) :
    machine.keyDown key =
      { machine with
        registers := machine.registers.set x key, mode := .running,
        keypad := machine.keypad.set key true } := by
  simp only [keyDown, if_pos present, waiting, target, storeAt_toByte, setRegister]

/-- Only one instruction starts a wait. -/
theorem mode_step (machine : Machine) (other : ∀ x, machine.executing? ≠ some (.awaitKey x))
    (playing : machine.mode = .running) : machine.step.mode = .running := by
  have kept : machine.step.content .mode = machine.content .mode := by
    apply content_step (by decide)
    intro instruction executes
    apply instruction.mode_writes
    intro y same
    exact other y (same ▸ executes)
  exact kept.trans playing

theorem mode_keyDown (machine : Machine) (key : UInt8) (playing : machine.mode = .running) :
    (machine.keyDown key).mode = .running := by
  rw [keyDown_of_unheard fun _ => playing]
  exact playing

/-- The next step starts from this machine while its memory and its program counter are as given. -/
structure Poised (machine : Machine) (address : UInt16) (memory : Memory) : Prop where
  running : machine.running = true
  pc : machine.pc = address
  memory : machine.memory = memory

theorem Poised.keyDown {address : UInt16} {memory : Memory} (machine : Machine) (key : UInt8)
    (poised : machine.Poised address memory) : (machine.keyDown key).Poised address memory := by
  rw [keyDown_of_unheard fun _ => ((running_iff machine).mp poised.running).2]
  exact ⟨poised.running, poised.pc, poised.memory⟩

/-- A press is only held when it reaches nothing but the keypad. A number above `F` is not held. -/
structure OnlyHolds (machine : Machine) (key : UInt8) : Prop where
  keypad : machine.keyDown key = { machine with keypad := machine.keypad.set key true }
  held : key < 16 → machine.keypad.Gains (machine.keyDown key).keypad key
  absent : ¬ key < 16 → machine.keyDown key = machine

theorem onlyHolds_of_playing (machine : Machine) (key : UInt8)
    (playing : machine.mode = .running) : machine.OnlyHolds key := by
  refine ⟨keyDown_of_unheard fun _ => playing, machine.gains_keyDown, ?absent⟩
  case absent => exact fun above => if_neg above

/-- A press completes a wait when it stores the key, and when no later key is stored until another
wait starts. The instruction after the wait is fetched next. -/
structure Completes (waiting : Machine) (x : Register) (address : UInt16) (key : UInt8) :
    Prop where
  stored : waiting.keyDown key =
    { waiting with
      registers := waiting.registers.set x key x.isLt, mode := .running,
      keypad := waiting.keypad.set key true }
  held : waiting.keypad.Gains (waiting.keyDown key).keypad key
  once : ∀ (scheduler : Scheduler) (moves : List Move),
    (∀ visited ∈ System.trail ⟨waiting.keyDown key, scheduler⟩ moves,
      ∀ y, visited.executing? ≠ some (.awaitKey y)) →
    ∀ other,
      (System.play ⟨waiting.keyDown key, scheduler⟩ moves).1.machine.OnlyHolds other
  next : ∀ (scheduler : Scheduler) (moves : List Move),
    ∀ first ∈ (System.trail ⟨waiting.keyDown key, scheduler⟩ moves).head?,
      first.Poised (address + 2) waiting.memory

theorem completes_of_waiting {key : UInt8} {address : UInt16}
    (unhalted : machine.halted = false) (waiting : machine.mode = .awaitingKey)
    (target : machine.waitRegister = Register.toByte x) (counter : machine.pc = address + 2)
    (present : key < 16) : machine.Completes x address key where
  stored := keyDown_of_waiting waiting target present
  held := machine.gains_keyDown present
  once scheduler moves unawaited other := by
    have playing : (machine.keyDown key).mode = .running := by
      rw [keyDown_of_waiting waiting target present]
    have kept := System.keptAlong_play mode_step (fun _ playing => playing) mode_keyDown
      (fun _ _ playing => playing) ⟨machine.keyDown key, scheduler⟩ moves playing
    exact onlyHolds_of_playing _ other (kept.holds unawaited)
  next scheduler moves first member := by
    have poised : (machine.keyDown key).Poised (address + 2) machine.memory := by
      rw [keyDown_of_waiting waiting target present]
      exact ⟨by simp [running, unhalted], counter, rfl⟩
    -- Nothing is known after the first step, so no machine on the trail is guarded.
    have kept : KeptAlong (fun _ => False) (fun next => next.Poised (address + 2) machine.memory) _ :=
      System.keptAlong_play (fun _ unguarded _ => unguarded.elim)
        (fun _ poised => ⟨poised.running, poised.pc, poised.memory⟩) Poised.keyDown
        (fun _ _ poised => ⟨poised.running, poised.pc, poised.memory⟩)
        ⟨machine.keyDown key, scheduler⟩ moves poised
    obtain ⟨rest, split⟩ := List.head?_eq_some_iff.mp member
    rw [split, List.cons_append] at kept
    exact kept.1

end Machine

/-- A wait begins with the machine of its instruction, also in the middle of a frame. It lasts until
a key of the keypad is pressed, and that one press completes it. -/
theorem one_press_completes_one_wait (machine : Machine) (x : Register)
    (executes : machine.executing? = some (.awaitKey x)) :
    machine.step =
        { machine with
          faultAddress := machine.pc, pc := machine.pc + 2, mode := .awaitingKey,
          waitRegister := Register.toByte x } ∧
      (∀ (start : Machine) (speed : Int) (executed : Nat), executed < speed.toNat →
        start.runSteps executed = machine → start.runFrame speed = machine.step) ∧
      ∀ (scheduler : Scheduler) (moves : List Move), (∀ move ∈ moves, move.Unheard) →
        let waiting := (System.play ⟨machine.step, scheduler⟩ moves).1.machine
        waiting = { machine.step with keypad := waiting.keypad } ∧
          ∀ key < 16, waiting.Completes x machine.pc key := by
  have begun := Machine.step_of_awaitKey executes
  have unhalted := ((Machine.running_iff machine).mp (Machine.executing?_eq_some.mp executes).1).1
  refine ⟨begun, fun _ _ _ => Machine.runFrame_of_awaitKey executes, ?_⟩
  intro scheduler moves unheard waiting
  have resting : (System.mk machine.step scheduler).machine.running = false :=
    Machine.not_running_of_awaitKey executes
  have kept : waiting = { machine.step with keypad := waiting.keypad } :=
    (System.play_of_resting resting (fun member => unheard _ member)
      fun key member present => absurd present (unheard _ member)).1
  refine ⟨kept, fun key present => ?_⟩
  apply Machine.completes_of_waiting _ _ _ _ present <;> rw [kept, begun]
  exact unhalted

/-- A key that is held from the beginning completes no wait, and a second press is held but not
stored. -/
theorem one_press_completes_wait_for_third_register :
    let machine := { Machine.fresh (MersenneTwister.seeded 0) with
      memory := Memory.zeroed.writeAll 0x200 [0xF3, 0x0A], keypad := Keypad.released.set 5 true }
    let waiting := (System.play ⟨machine.step, {}⟩ [.frame, .keyUp 9, .keyDown 0x20, .step]).1.machine
    let pressed := waiting.keyDown 7
    let again := pressed.keyDown 8
    waiting.pc = 0x202 ∧ pressed.register 3 = 7 ∧ again.register 3 = 7 ∧
      [5, 7, 8, 9].map waiting.keypad.isPressed = [true, false, false, false] ∧
      [5, 7, 8, 9].map pressed.keypad.isPressed = [true, true, false, false] ∧
      [5, 7, 8, 9].map again.keypad.isPressed = [true, true, true, false] := by
  intro machine waiting pressed again
  have executes : machine.executing? = some (.awaitKey 3) := by decide +kernel
  obtain ⟨begun, _, lasts⟩ := one_press_completes_one_wait machine 3 executes
  obtain ⟨kept, completes⟩ := lasts {} [.frame, .keyUp 9, .keyDown 0x20, .step]
    (by simp [Move.Unheard])
  have completed := completes 7 (by decide)
  have onlyHolds : pressed.OnlyHolds 8 := completed.once {} [] (by simp [System.trail]) 8
  have stored : pressed.register 3 = 7 := by
    rw [show pressed = _ from completed.stored]
    exact Vector.getElem_set_self _
  have before : [5, 7, 8, 9].map waiting.keypad.isPressed = [true, false, false, false] := by
    decide +kernel
  have held : [5, 7, 8, 9].map pressed.keypad.isPressed = [true, true, false, false] := by
    have gains : waiting.keypad.Gains pressed.keypad 7 := completed.held
    simp only [List.map_cons, List.map_nil, List.cons.injEq, and_true] at before ⊢
    simp [gains.isPressed_eq, before]
  refine ⟨?counter, stored, ?kept, before, held, ?again⟩
  case counter => exact (congrArg Machine.pc kept).trans (congrArg Machine.pc begun)
  case kept => exact (congrArg (fun machine => machine.register 3) onlyHolds.keypad).trans stored
  case again =>
    have gains : pressed.keypad.Gains again.keypad 8 := onlyHolds.held (by decide)
    simp only [List.map_cons, List.map_nil, List.cons.injEq, and_true] at held ⊢
    simp [gains.isPressed_eq, held]

end Chip8
