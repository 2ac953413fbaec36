import Chip8.Machine
import Chip8.Options

/-!
This file holds the start of a machine: the program is read, the machine is reset, and the
program is loaded above the font.
-/

namespace Chip8

open Text

/-- A program is unreadable or too large. -/
inductive BootError
  | unreadable (cause : Rom.ReadError)
  | tooLarge (length : Nat)
deriving DecidableEq

def BootError.message (path : ByteString) : BootError → ByteString
  | .unreadable cause => cause.message path
  | .tooLarge length =>
      ascii "[chip8] '" ++ path ++ ascii "' is " ++ decimal length ++ ascii " bytes, only " ++
        decimal (Memory.size - Memory.programStart) ++ ascii " fit\n"

namespace Machine

/-- A given seed replaces the generator that the reset keeps. -/
def restart (machine : Machine) (seed : Option UInt32) : Machine :=
  match seed with
  | none => machine.reset
  | some value => machine.reset.seed value

/-- An unreadable program leaves the machine alone, and a program that is too large leaves it
restarted. -/
def boot (machine : Machine) (files : Rom.Files) (options : Options) :
    Machine × Option BootError :=
  match Rom.read files options.romPath options.format with
  | .error cause => (machine, some (.unreadable cause))
  | .ok program =>
      let restarted := machine.restart options.seed
      match restarted.load? program (UInt16.ofNat Memory.programStart) with
      | none => (restarted, some (.tooLarge program.length))
      | some loaded => (loaded, none)

end Machine

end Chip8
