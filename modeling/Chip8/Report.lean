import Chip8.Machine

/-!
This file holds the texts about one machine: its picture, its state, its registers, and the reason
why it does not run. All lines but the counters have a fixed length.
-/

namespace Chip8.Report

open Text

/-- The picture stands in a frame, one character for each pixel. -/
def border : ByteString :=
  ascii "+" ++ List.replicate Display.width 0x2D ++ ascii "+\n"

def pictureRow (picture : Display) (row : Nat) : ByteString :=
  ascii "|" ++
    ((List.range Display.width).map fun column =>
      if picture.lit column row then 0x23 else 0x20) ++
    ascii "|\n"

def pictureText (picture : Display) : ByteString :=
  border ++ (List.range Display.height).flatMap (pictureRow picture) ++ border

def modeText : Mode → ByteString
  | .running => ascii "RUN"
  | .awaitingKey => ascii "KEY"

def stateLine (machine : Machine) : ByteString :=
  ascii "PC=" ++ hexWord lowerDigit machine.pc ++
  ascii "  I=" ++ hexWord lowerDigit machine.index ++
  ascii "  DT=" ++ hexByte lowerDigit machine.delay ++
  ascii "  ST=" ++ hexByte lowerDigit machine.sound ++
  ascii "  depth=" ++ decimal machine.stack.length ++
  ascii "  mode=" ++ modeText machine.mode ++ ascii "\n"

/-- Registers have an upper-case name and a lower-case value, eight to a line. -/
def registerText (machine : Machine) (target : Register) : ByteString :=
  ascii "V" ++ [upperDigit target.val] ++ ascii "=" ++
    hexByte lowerDigit (machine.register target) ++
    (if target.val % 8 = 7 then ascii "\n" else ascii "  ")

def registerLines (machine : Machine) : ByteString :=
  (List.finRange 16).flatMap (registerText machine)

/-- A machine that halted while it awaited a key is not waiting. -/
def waitLine (machine : Machine) : ByteString :=
  match machine.halted, machine.mode with
  | false, .awaitingKey =>
      ascii "waiting for key into V" ++ [upperDigit machine.waitRegister.val] ++ ascii "\n"
  | _, _ => []

/-- A halt is reported with its opcode and its address. -/
def haltLine (spell : Nat → UInt8) (machine : Machine) : ByteString :=
  ascii "[chip8] halted: " ++ Fault.name machine.fault ++
  ascii " (opcode " ++ hexWord spell machine.faultOpcode ++
  ascii " at " ++ hexWord spell machine.faultAddress ++ ascii ")\n"

/-- All rows of the picture have one length. -/
theorem length_pictureRow (picture : Display) (row : Nat) :
    (pictureRow picture row).length = 67 := by
  simp only [pictureRow, List.length_append, List.length_map, List.length_range]
  decide

end Chip8.Report
