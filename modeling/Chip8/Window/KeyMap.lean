/-!
This file holds the physical keys. Four rows of four keys on the left of a keyboard stand for the
keypad, and two further keys belong to the window.
-/

namespace Chip8.Window

/-- Physical keys have the numbers of the USB usage table. -/
abbrev Scancode := Nat

/-- The rows `1234`, `QWER`, `ASDF` and `ZXCV` stand for `123C`, `456D`, `789E` and `A0BF`. -/
def keyLayout : List (Scancode × UInt8) :=
  [(30, 0x1), (31, 0x2), (32, 0x3), (33, 0xC),
   (20, 0x4), (26, 0x5), (8, 0x6), (21, 0xD),
   (4, 0x7), (22, 0x8), (7, 0x9), (9, 0xE),
   (29, 0xA), (27, 0x0), (6, 0xB), (25, 0xF)]

/-- A physical key outside the layout stands for no key. -/
def key? (scancode : Scancode) : Option UInt8 :=
  keyLayout.lookup scancode

/-- Escape ends the session. -/
def escapeScancode : Scancode := 41

/-- `F1` shows and hides the panel. -/
def panelScancode : Scancode := 58

/-- The layout reaches every key of the keypad. -/
theorem keyLayout_complete (key : Fin 16) :
    ∃ entry ∈ keyLayout, entry.2 = UInt8.ofNat key.val := by
  decide +revert

end Chip8.Window
