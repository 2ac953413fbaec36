import Chip8.Text

/-!
This file holds the conditions that halt the machine, with their names.
-/

namespace Chip8

open Text

/-- A fault halts the machine for good. -/
inductive Fault
  | unknownOpcode
  | stackUnderflow
  | stackOverflow
  | memoryOutOfRange
deriving DecidableEq

namespace Fault

/-- A machine without a fault has a name for its condition too. -/
def name : Option Fault → ByteString
  | none => ascii "none"
  | some .unknownOpcode => ascii "unknown opcode"
  | some .stackUnderflow => ascii "stack underflow"
  | some .stackOverflow => ascii "stack overflow"
  | some .memoryOutOfRange => ascii "memory out of range"

/-- Conditions are numbered from zero, which is the machine without a fault. -/
def ofCode? : Int → Option (Option Fault)
  | 0 => some none
  | 1 => some (some .unknownOpcode)
  | 2 => some (some .stackUnderflow)
  | 3 => some (some .stackOverflow)
  | 4 => some (some .memoryOutOfRange)
  | _ => none

/-- A number outside the list is shown as a question mark. -/
def nameOfCode (code : Int) : ByteString :=
  match ofCode? code with
  | some condition => name condition
  | none => ascii "?"

end Fault

end Chip8
