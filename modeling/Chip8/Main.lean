import Chip8.Headless

/-!
This file holds the command line. It reads the named program, draws entropy for the generator,
and prints the outcome of the run without a window.
-/

namespace Chip8

/-- An argument is known by its bytes. -/
def argumentBytes (argument : String) : ByteString :=
  argument.toUTF8.toList

/-- The only file that a run can open is the program that its arguments name. -/
def programFiles (path : ByteString) (content : Option (List UInt8)) : Rom.Files :=
  fun name => if name = path then content.map Rom.File.regular else none

def readProgram (path : ByteString) : IO (Option (List UInt8)) := do
  match String.fromUTF8? ⟨path.toArray⟩ with
  | none => return none
  | some name =>
      try
        let content ← IO.FS.readBinFile name
        return some content.toList
      catch _ => return none

def printBytes (stream : IO.FS.Stream) (text : ByteString) : IO Unit := do
  stream.write ⟨text.toArray⟩
  stream.flush

/-- The command line runs the machine without a window. -/
def runCommand (arguments : List String) : IO UInt32 := do
  let texts := arguments.map argumentBytes
  let path := (Options.parse {} texts).1.romPath
  let content ← readProgram path
  let entropy ← IO.rand 0 4294967295
  let generator := MersenneTwister.seeded (UInt32.ofNat entropy)
  let outcome := Headless.run generator (programFiles path content) texts
  printBytes (← IO.getStdout) outcome.output
  printBytes (← IO.getStderr) outcome.errors
  return UInt32.ofNat outcome.status

end Chip8

def main (arguments : List String) : IO UInt32 :=
  Chip8.runCommand arguments
