import Chip8.Display
import Chip8.Fault
import Chip8.Font
import Chip8.Instruction
import Chip8.Keypad
import Chip8.Memory
import Chip8.MersenneTwister

/-!
This file holds the machine state and the operations that the outside performs on it: reset,
seeding, program loading, timer ticks and key events.
-/

namespace Chip8

/-- A machine that awaits a key executes nothing. -/
inductive Mode
  | running
  | awaitingKey
deriving DecidableEq

/-- The call stack holds at most this many return addresses. -/
def stackLimit : Nat := 16

/-- The head of the stack is the latest return address. The wait register is a number of one byte,
and the fault address is the address of the latest instruction, whether or not it faulted. -/
structure Machine where
  registers : Vector UInt8 16 := Vector.replicate 16 0
  index : UInt16 := 0
  pc : UInt16 := 0x200
  stack : List UInt16 := []
  delay : UInt8 := 0
  sound : UInt8 := 0
  memory : Memory := Memory.zeroed
  display : Display := Display.blank
  keypad : Keypad := Keypad.released
  mode : Mode := .running
  waitRegister : Fin 256 := 0
  halted : Bool := false
  fault : Option Fault := none
  faultAddress : UInt16 := 0
  faultOpcode : Opcode := 0
  generator : MersenneTwister
deriving DecidableEq

namespace Machine

/-- A fresh machine has empty memory and no font. -/
def fresh (generator : MersenneTwister) : Machine where
  generator := generator

def running (machine : Machine) : Bool :=
  !machine.halted && machine.mode == .running

def register (machine : Machine) (target : Register) : UInt8 :=
  machine.registers[target]

def setRegister (machine : Machine) (target : Register) (value : UInt8) : Machine :=
  { machine with registers := machine.registers.set target value }

/-- A number above `F` names no register, and what is stored there is lost. -/
def storeAt (machine : Machine) (number : Fin 256) (value : UInt8) : Machine :=
  { machine with registers := machine.registers.setIfInBounds number.val value }

/-- A later fault replaces an earlier one. -/
def halt (machine : Machine) (fault : Fault) (opcode : Opcode) : Machine :=
  { machine with halted := true, fault := some fault, faultOpcode := opcode }

def loadFont (machine : Machine) : Machine :=
  { machine with memory := machine.memory.withFont }

/-- A reset keeps only the generator. -/
def reset (machine : Machine) : Machine :=
  (fresh machine.generator).loadFont

def seed (machine : Machine) (value : UInt32) : Machine :=
  { machine with generator := MersenneTwister.seeded value }

/-- The bound is checked in 32-bit arithmetic. -/
def fits (origin : UInt16) (length : Nat) : Bool :=
  origin.toUInt32 + UInt32.ofNat length ≤ 4096

/-- A program that does not fit is refused. -/
def load? (machine : Machine) (program : List UInt8) (origin : UInt16) : Option Machine :=
  if fits origin program.length then
    some { machine with memory := machine.memory.writeAll origin.toNat program }
  else none

/-- A timer stops at zero. -/
def countDown (timer : UInt8) : UInt8 :=
  if timer = 0 then 0 else timer - 1

def tickTimers (machine : Machine) : Machine :=
  { machine with delay := countDown machine.delay, sound := countDown machine.sound }

/-- A pressed key is held, and it completes a wait. A number above `F` is no key. -/
def keyDown (machine : Machine) (key : UInt8) : Machine :=
  if key < 16 then
    let held := { machine with keypad := machine.keypad.set key true }
    match held.mode with
    | .running => held
    | .awaitingKey => { held.storeAt held.waitRegister key with mode := .running }
  else machine

def keyUp (machine : Machine) (key : UInt8) : Machine :=
  { machine with keypad := machine.keypad.set key false }

/-- A register holds its last value. -/
theorem register_setRegister (machine : Machine) (target query : Register) (value : UInt8) :
    (machine.setRegister target value).register query =
      if target = query then value else machine.register query := by
  simp only [register, setRegister, Fin.getElem_fin, Vector.getElem_set, Fin.ext_iff]

/-- A press reaches the registers, the keypad and the mode, and nothing else. -/
theorem keyDown_eq (machine : Machine) (key : UInt8) :
    machine.keyDown key =
      { machine with
        registers := (machine.keyDown key).registers, keypad := (machine.keyDown key).keypad,
        mode := (machine.keyDown key).mode } := by
  unfold keyDown
  dsimp only
  split
  · split <;> rfl
  · rfl

theorem countDown_toNat (timer : UInt8) : (countDown timer).toNat = timer.toNat - 1 := by
  unfold countDown
  split
  · simp_all
  · rename_i positive
    have above : (1 : UInt8) ≤ timer := by
      rw [UInt8.le_iff_toNat_le]
      have nonzero : timer.toNat ≠ 0 := fun zero => positive (UInt8.toNat_inj.mp zero)
      simp only [UInt8.toNat_one]
      omega
    rw [UInt8.toNat_sub_of_le _ _ above]
    rfl

end Machine

end Chip8
