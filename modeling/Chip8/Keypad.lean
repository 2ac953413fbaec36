/-!
This file holds the sixteen-key keypad. A key number above `F` names no key.
-/

namespace Chip8

/-- The keypad remembers which keys are held. -/
structure Keypad where
  held : Vector Bool 16
deriving DecidableEq

namespace Keypad

def released : Keypad := ⟨Vector.replicate 16 false⟩

def isPressed (keypad : Keypad) (key : UInt8) : Bool :=
  keypad.held[key.toNat]?.getD false

/-- A number above `F` leaves the keypad alone. -/
def set (keypad : Keypad) (key : UInt8) (down : Bool) : Keypad :=
  ⟨keypad.held.setIfInBounds key.toNat down⟩

theorem isPressed_released (key : UInt8) : released.isPressed key = false := by
  by_cases inside : key.toNat < 16 <;> simp [isPressed, released, inside]

/-- A key that exists answers with its last setting. -/
theorem isPressed_set (keypad : Keypad) (key query : UInt8) (down : Bool) :
    (keypad.set key down).isPressed query =
      if key = query ∧ query.toNat < 16 then down else keypad.isPressed query := by
  by_cases inside : query.toNat < 16
  · by_cases hit : key = query
    · simp [isPressed, set, inside, hit]
    · have apart : key.toNat ≠ query.toNat := fun same => hit (UInt8.toNat_inj.mp same)
      simp [isPressed, set, inside, hit, apart]
  · simp [isPressed, set, inside]

end Keypad

end Chip8
