import Chip8.Proofs.Resting
import Chip8.Proofs.SessionStages
import Mathlib.Data.List.Basic
import Mathlib.Data.List.Induction

/-!
This file holds the strokes of a session. An event that counts presses or releases one key of the
keypad, and every other event leaves the machine alone.
-/

namespace Chip8

/-- A stroke presses or releases a key. -/
structure Stroke where
  key : UInt8
  down : Bool
deriving DecidableEq

/-- The last stroke of this key is a press. -/
def PressedLast (key : UInt8) (strokes : List Stroke) : Prop :=
  (strokes.filter fun stroke => stroke.key = key).getLast? = some ⟨key, true⟩

instance (key : UInt8) (strokes : List Stroke) : Decidable (PressedLast key strokes) :=
  inferInstanceAs (Decidable (_ = _))

theorem not_pressedLast_nil (key : UInt8) : ¬ PressedLast key [] := by
  simp [PressedLast]

/-- A stroke of the key decides, and a stroke of another key changes nothing. -/
theorem pressedLast_concat {key : UInt8} {strokes : List Stroke} {stroke : Stroke} :
    PressedLast key (strokes ++ [stroke]) ↔
      if stroke.key = key then stroke.down = true else PressedLast key strokes := by
  obtain ⟨struck, down⟩ := stroke
  unfold PressedLast
  rw [List.filter_append]
  split
  · rename_i same
    obtain rfl : struck = key := same
    simp
  · rename_i apart
    simp [show ¬ struck = key from apart]

namespace Keypad

def strike (keypad : Keypad) (stroke : Stroke) : Keypad :=
  keypad.set stroke.key stroke.down

/-- Strokes on a released keypad hold the keys whose last stroke is a press. -/
theorem isPressed_strikes_iff {key : UInt8} (present : key < 16) (strokes : List Stroke) :
    (strokes.foldl strike released).isPressed key = true ↔ PressedLast key strokes := by
  have inside : key.toNat < 16 := UInt8.lt_iff_toNat_lt.mp present
  induction strokes using List.reverseRecOn with
  | nil => simp [isPressed_released, not_pressedLast_nil]
  | append_singleton strokes stroke inductionHypothesis =>
      rw [List.foldl_concat, strike, isPressed_set, pressedLast_concat]
      by_cases struck : stroke.key = key
      · simp [struck, inside]
      · simp [struck, inductionHypothesis]

end Keypad

namespace Machine

def strike (machine : Machine) (stroke : Stroke) : Machine :=
  if stroke.down then machine.keyDown stroke.key else machine.keyUp stroke.key

theorem keypad_strike (machine : Machine) (stroke : Stroke) :
    (machine.strike stroke).keypad = machine.keypad.strike stroke := by
  obtain ⟨key, down⟩ := stroke
  cases down with
  | true => exact machine.keypad_keyDown key
  | false => rfl

theorem keypad_strikes (machine : Machine) (strokes : List Stroke) :
    (strokes.foldl strike machine).keypad = strokes.foldl Keypad.strike machine.keypad := by
  induction strokes generalizing machine with
  | nil => rfl
  | cons stroke rest inductionHypothesis =>
      rw [List.foldl_cons, inductionHypothesis, keypad_strike, List.foldl_cons]

/-- A stroke reaches the registers, the keypad and the mode, and nothing else. -/
theorem strike_eq (machine : Machine) (stroke : Stroke) :
    machine.strike stroke =
      { machine with
        registers := (machine.strike stroke).registers,
        keypad := (machine.strike stroke).keypad, mode := (machine.strike stroke).mode } := by
  unfold strike
  split
  · exact machine.keyDown_eq stroke.key
  · rfl

end Machine

namespace Window

/-- A press counts unless it is repeated or the panel has the keyboard. A release always counts. -/
def Event.stroke? (captured : Bool) : Event → Option Stroke
  | .keyDown scancode =>
      if captured then none else (key? scancode).map fun key => ⟨key, true⟩
  | .keyUp scancode => (key? scancode).map fun key => ⟨key, false⟩
  | .keyRepeat _ | .quit | .other => none

def Pass.strokes (pass : Pass) : List Stroke :=
  pass.events.filterMap (Event.stroke? pass.captured)

/-- The two keys of the window are no keys of the keypad. -/
theorem key?_of_window_key {scancode : Scancode}
    (owned : scancode = escapeScancode ∨ scancode = panelScancode) : key? scancode = none := by
  rcases owned with rfl | rfl <;> decide

namespace Session

variable (session : Session)

/-- An event reaches the machine by its stroke, if it has one. -/
theorem machine_handle (captured : Bool) (event : Event) :
    (session.handle captured event).machine =
      (event.stroke? captured).elim session.machine session.machine.strike := by
  cases event with
  | keyDown scancode =>
      simp only [handle, Event.stroke?]
      by_cases escape : scancode = escapeScancode
      · simp [if_pos escape, key?_of_window_key (.inl escape)]
      · by_cases panel : scancode = panelScancode
        · simp [if_neg escape, if_pos panel, key?_of_window_key (.inr panel)]
        · rw [if_neg escape, if_neg panel]
          cases captured <;> cases key? scancode <;> rfl
  | keyUp scancode =>
      simp only [handle, Event.stroke?]
      cases key? scancode <;> rfl
  | keyRepeat scancode => rfl
  | quit => rfl
  | other => rfl

/-- The strokes reach the machine in their order. -/
theorem machine_handleAll (captured : Bool) (events : List Event) :
    (session.handleAll captured events).machine =
      (events.filterMap (Event.stroke? captured)).foldl Machine.strike session.machine := by
  induction events generalizing session with
  | nil => rfl
  | cons event rest inductionHypothesis =>
      have handled := inductionHypothesis (session.handle captured event)
      rw [machine_handle] at handled
      cases counted : event.stroke? captured with
      | none =>
          rw [List.filterMap_cons_none counted]
          rw [counted] at handled
          exact handled
      | some stroke =>
          rw [List.filterMap_cons_some counted]
          rw [counted] at handled
          exact handled

end Session

end Window

end Chip8
