import Chip8.Machine

/-!
This file holds the instruction cycle. An opcode is decoded, its fault condition is checked, and
only then is the instruction performed, so that a faulting instruction writes nothing.
-/

namespace Chip8

namespace Instruction

/-- The span counts the bytes that the instruction reads or writes at the index. -/
def span? : Instruction → Option Nat
  | .draw _ height => some height.val
  | .storeDecimal _ => some 3
  | .storeRegisters last => some (last.val + 1)
  | .loadRegisters last => some (last.val + 1)
  | _ => none

/-- The fault condition depends on the stack and on the index alone. -/
def fault? (instruction : Instruction) (machine : Machine) : Option Fault :=
  match instruction with
  | .leaveRoutine => if machine.stack.isEmpty then some .stackUnderflow else none
  | .call _ => if stackLimit ≤ machine.stack.length then some .stackOverflow else none
  | _ =>
      match instruction.span? with
      | none => none
      | some span =>
          if machine.index.toNat + span ≤ Memory.size then none else some .memoryOutOfRange

end Instruction

/-- The high bit of a sprite row is its leftmost column. -/
def spriteColumns (pattern : UInt8) : List Nat :=
  (List.range 8).filter fun column => pattern.toNat.testBit (7 - column)

/-- The offsets of a sprite are its set bits, as column and row, from the top row down. -/
def spriteOffsets (memory : Memory) (address height : Nat) : List (Nat × Nat) :=
  (List.range height).flatMap fun row =>
    (spriteColumns (memory.read (address + row))).map fun column => (column, row)

namespace Machine

def skipIf (machine : Machine) (condition : Bool) : Machine :=
  if condition then { machine with pc := machine.pc + 2 } else machine

/-- The flag is one or zero. -/
def setFlag (machine : Machine) (condition : Bool) : Machine :=
  machine.setRegister flagRegister (if condition then 1 else 0)

def leaveRoutine (machine : Machine) : Machine :=
  match machine.stack with
  | [] => machine
  | address :: rest => { machine with pc := address, stack := rest }

/-- The flag is assigned after the sum is known and before the sum is stored. -/
def add (machine : Machine) (x y : Register) : Machine :=
  let sum := (machine.register x).toNat + (machine.register y).toNat
  (machine.setFlag (255 < sum)).setRegister x (UInt8.ofNat sum)

/-- The difference is taken of the registers as they stand after the flag is assigned. -/
def subtract (machine : Machine) (x y : Register) : Machine :=
  let flagged := machine.setFlag (machine.register y < machine.register x)
  flagged.setRegister x (flagged.register x - flagged.register y)

/-- The difference is taken of the registers as they stand after the flag is assigned. -/
def subtractFrom (machine : Machine) (x y : Register) : Machine :=
  let flagged := machine.setFlag (machine.register x < machine.register y)
  flagged.setRegister x (flagged.register y - flagged.register x)

/-- The flag receives the bit that leaves on the right. -/
def shiftRight (machine : Machine) (x : Register) : Machine :=
  let flagged := machine.setRegister flagRegister (machine.register x &&& 0x01)
  flagged.setRegister x (flagged.register x >>> 1)

/-- The flag receives the bit that leaves on the left, in its place. -/
def shiftLeft (machine : Machine) (x : Register) : Machine :=
  let flagged := machine.setRegister flagRegister (machine.register x &&& 0x80)
  flagged.setRegister x (flagged.register x <<< 1)

/-- One byte is drawn, whatever the mask keeps of it. -/
def random (machine : Machine) (x : Register) (mask : UInt8) : Machine :=
  let (byte, generator) := machine.generator.nextByte
  { machine with generator := generator }.setRegister x (byte &&& mask)

/-- Both coordinates start at the same register, which is read afresh for every pixel. An erased
pixel sets the flag. -/
def drawPixel (machine : Machine) (origin : Register) (offset : Nat × Nat) : Machine :=
  let start := (machine.register origin).toNat
  let (display, erased) := machine.display.toggle ↑(start + offset.1) ↑(start + offset.2)
  let drawn := { machine with display := display }
  if erased then drawn.setRegister flagRegister 1 else drawn

def drawPixels (machine : Machine) (origin : Register) (offsets : List (Nat × Nat)) : Machine :=
  offsets.foldl (fun drawn offset => drawn.drawPixel origin offset) machine

/-- The flag is cleared before the first pixel is drawn. -/
def draw (machine : Machine) (origin : Register) (height : Nat) : Machine :=
  (machine.setRegister flagRegister 0).drawPixels origin
    (spriteOffsets machine.memory machine.index.toNat height)

/-- The three decimal digits of a register go to memory, hundreds first. -/
def storeDecimal (machine : Machine) (x : Register) : Machine :=
  let value := machine.register x
  { machine with
    memory := machine.memory.writeAll machine.index.toNat
      [value / 100, value / 10 % 10, value % 10] }

/-- The registers up to the last one go to memory. -/
def storeRegisters (machine : Machine) (last : Register) : Machine :=
  { machine with
    memory := machine.memory.writeAll machine.index.toNat
      (machine.registers.toList.take (last.val + 1)) }

/-- The registers up to the last one come from memory. -/
def loadRegisters (machine : Machine) (last : Register) : Machine :=
  { machine with
    registers := Vector.ofFn fun target : Register =>
      if target ≤ last then machine.memory.read (machine.index.toNat + target.val)
      else machine.register target }

/-- Every effect starts after the program counter has moved past the instruction. -/
def perform (machine : Machine) : Instruction → Machine
  | .ignore => machine
  | .clearDisplay => { machine with display := Display.blank }
  | .leaveRoutine => machine.leaveRoutine
  | .jump target => { machine with pc := target }
  | .call target => { machine with stack := machine.pc :: machine.stack, pc := target }
  | .skipIfByte x value => machine.skipIf (machine.register x == value)
  | .skipUnlessByte x value => machine.skipIf (machine.register x != value)
  | .skipIfEqual x y => machine.skipIf (machine.register x == machine.register y)
  | .skipUnlessEqual x y => machine.skipIf (machine.register x != machine.register y)
  | .setByte x value => machine.setRegister x value
  | .addByte x value => machine.setRegister x (machine.register x + value)
  | .copy x y => machine.setRegister x (machine.register y)
  | .bitOr x y => machine.setRegister x (machine.register x ||| machine.register y)
  | .bitAnd x y => machine.setRegister x (machine.register x &&& machine.register y)
  | .bitXor x y => machine.setRegister x (machine.register x ^^^ machine.register y)
  | .add x y => machine.add x y
  | .subtract x y => machine.subtract x y
  | .shiftRight x => machine.shiftRight x
  | .subtractFrom x y => machine.subtractFrom x y
  | .shiftLeft x => machine.shiftLeft x
  | .setIndex target => { machine with index := target }
  | .jumpFromFirst target =>
      { machine with pc := target + (machine.register firstRegister).toUInt16 }
  | .random x mask => machine.random x mask
  | .draw origin height => machine.draw origin height.val
  | .skipIfPressed x => machine.skipIf (machine.keypad.isPressed (machine.register x))
  | .skipUnlessPressed x => machine.skipIf (!machine.keypad.isPressed (machine.register x))
  | .readDelay x => machine.setRegister x machine.delay
  | .awaitKey x => { machine with mode := .awaitingKey, waitRegister := Register.toByte x }
  | .setDelay x => { machine with delay := machine.register x }
  | .setSound x => { machine with sound := machine.register x }
  | .advanceIndex x => { machine with index := machine.index + (machine.register x).toUInt16 }
  | .pointToGlyph x =>
      { machine with index := (machine.register x).toUInt16 * UInt16.ofNat glyphHeight }
  | .storeDecimal x => machine.storeDecimal x
  | .storeRegisters last => machine.storeRegisters last
  | .loadRegisters last => machine.loadRegisters last

/-- The program counter moves past the instruction, and its address is remembered. -/
def advance (machine : Machine) : Machine :=
  { machine with faultAddress := machine.pc, pc := machine.pc + 2 }

/-- An opcode outside the table and an instruction that would fault both halt the machine. -/
def execute (machine : Machine) (opcode : Opcode) : Machine :=
  match Instruction.decode? opcode with
  | none => machine.advance.halt .unknownOpcode opcode
  | some instruction =>
      match instruction.fault? machine with
      | some fault => machine.advance.halt fault opcode
      | none => machine.advance.perform instruction

/-- A running machine executes the word at the program counter. A word that ends above the memory
is a fault of its own, and the program counter stays. -/
def step (machine : Machine) : Machine :=
  if machine.running then
    if machine.pc.toNat + 2 ≤ Memory.size then
      machine.execute (machine.memory.word machine.pc.toNat)
    else
      { machine with faultAddress := machine.pc }.halt .memoryOutOfRange 0
  else machine

/-- Nothing happens while the machine does not run. -/
theorem step_of_not_running {machine : Machine} (idle : machine.running = false) :
    machine.step = machine := by
  simp [step, idle]

end Machine

end Chip8
