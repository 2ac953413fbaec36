import Chip8.Scheduler

/-!
This file repeats the operations of the machine with a check of every array access. A read or a
write outside its array fails, as does a return from an empty stack, and an operation fails as soon
as one of its accesses does.
-/

namespace Chip8

section Arrays

variable {Cell : Type} {size : Nat}

def readCell? (cells : Vector Cell size) (place : Int) : Option Cell :=
  if inside : 0 ≤ place ∧ place < size then some (cells.get ⟨place.toNat, by omega⟩) else none

def writeCell? (cells : Vector Cell size) (place : Int) (value : Cell) :
    Option (Vector Cell size) :=
  if inside : 0 ≤ place ∧ place < size then some (cells.set place.toNat value (by omega)) else none

end Arrays

/-- A point that still misses the screen after it was wrapped once is clipped before the access. -/
def Display.toggle? (display : Display) (x y : Int) : Option (Display × Bool) := do
  let column := wrapOnce width x
  let row := wrapOnce height y
  if 0 ≤ column ∧ column < 64 ∧ 0 ≤ row ∧ row < 32 then
    let changed := (← readCell? display.pixels (column + 64 * row)) ^^^ 1
    return (⟨← writeCell? display.pixels (column + 64 * row) changed⟩, changed == 0)
  else return (display, false)

namespace Machine

section Accesses

variable (machine : Machine)

def register? (number : Nat) : Option UInt8 :=
  readCell? machine.registers number

def assign? (number : Nat) (value : UInt8) : Option Machine := do
  return { machine with registers := ← writeCell? machine.registers number value }

def byte? (address : Nat) : Option UInt8 :=
  readCell? machine.memory.bytes address

def store? (address : Nat) (value : UInt8) : Option Machine := do
  return { machine with memory := ⟨← writeCell? machine.memory.bytes address value⟩ }

/-- A number above `F` is compared but not looked up. -/
def pressed? (key : UInt8) : Option Bool :=
  if key < 16 then readCell? machine.keypad.held key.toNat else some false

def hold? (key : UInt8) (down : Bool) : Option Machine :=
  if key < 16 then do
    return { machine with keypad := ⟨← writeCell? machine.keypad.held key.toNat down⟩ }
  else some machine

def pop? : Option Machine :=
  match machine.stack with
  | [] => none
  | address :: rest => some { machine with pc := address, stack := rest }

/-- The register of the origin is looked up once for each coordinate. -/
def drawPixel? (origin : Register) (offset : Nat × Nat) : Option Machine := do
  let x := (← machine.register? origin.val).toNat + offset.1
  let y := (← machine.register? origin.val).toNat + offset.2
  let (display, erased) ← machine.display.toggle? x y
  let drawn := { machine with display := display }
  if erased then drawn.assign? flagRegister.val 1 else return drawn

/-- One row of a sprite is one byte of memory. -/
def drawRow? (origin : Register) (row : Nat) : Option Machine := do
  let pattern ← machine.byte? (machine.index.toNat + row)
  (spriteColumns pattern).foldlM (fun drawn column => drawn.drawPixel? origin (column, row)) machine

def storeRegister? (number : Nat) : Option Machine := do
  machine.store? (machine.index.toNat + number) (← machine.register? number)

def loadRegister? (number : Nat) : Option Machine := do
  machine.assign? number (← machine.byte? (machine.index.toNat + number))

end Accesses

/-- The checks stand in the order of the accesses. An instruction without any access is performed as
it is. -/
def perform? (machine : Machine) : Instruction → Option Machine
  | instruction@.ignore | instruction@.clearDisplay | instruction@(.jump _)
  | instruction@(.call _) | instruction@(.setIndex _) | instruction@(.awaitKey _) =>
      some (machine.perform instruction)
  | .leaveRoutine => machine.pop?
  | .skipIfByte x value => do return machine.skipIf ((← machine.register? x.val) == value)
  | .skipUnlessByte x value => do return machine.skipIf ((← machine.register? x.val) != value)
  | .skipIfEqual x y => do
      return machine.skipIf ((← machine.register? x.val) == (← machine.register? y.val))
  | .skipUnlessEqual x y => do
      return machine.skipIf ((← machine.register? x.val) != (← machine.register? y.val))
  | .setByte x value => machine.assign? x.val value
  | .addByte x value => do machine.assign? x.val ((← machine.register? x.val) + value)
  | .copy x y => do machine.assign? x.val (← machine.register? y.val)
  | .bitOr x y => do
      machine.assign? x.val ((← machine.register? x.val) ||| (← machine.register? y.val))
  | .bitAnd x y => do
      machine.assign? x.val ((← machine.register? x.val) &&& (← machine.register? y.val))
  | .bitXor x y => do
      machine.assign? x.val ((← machine.register? x.val) ^^^ (← machine.register? y.val))
  | .add x y => do
      let sum := (← machine.register? x.val).toNat + (← machine.register? y.val).toNat
      let flagged ← machine.assign? flagRegister.val (if 255 < sum then 1 else 0)
      flagged.assign? x.val (UInt8.ofNat sum)
  | .subtract x y => do
      let borrows := (← machine.register? y.val) < (← machine.register? x.val)
      let flagged ← machine.assign? flagRegister.val (if borrows then 1 else 0)
      flagged.assign? x.val ((← flagged.register? x.val) - (← flagged.register? y.val))
  | .subtractFrom x y => do
      let borrows := (← machine.register? x.val) < (← machine.register? y.val)
      let flagged ← machine.assign? flagRegister.val (if borrows then 1 else 0)
      flagged.assign? x.val ((← flagged.register? y.val) - (← flagged.register? x.val))
  | .shiftRight x => do
      let flagged ← machine.assign? flagRegister.val ((← machine.register? x.val) &&& 0x01)
      flagged.assign? x.val ((← flagged.register? x.val) >>> 1)
  | .shiftLeft x => do
      let flagged ← machine.assign? flagRegister.val ((← machine.register? x.val) &&& 0x80)
      flagged.assign? x.val ((← flagged.register? x.val) <<< 1)
  | .jumpFromFirst target => do
      return { machine with pc := target + (← machine.register? firstRegister.val).toUInt16 }
  | .random x mask =>
      let (byte, generator) := machine.generator.nextByte
      { machine with generator := generator }.assign? x.val (byte &&& mask)
  | .draw origin height => do
      let cleared ← machine.assign? flagRegister.val 0
      (List.range height.val).foldlM (fun drawn row => drawn.drawRow? origin row) cleared
  | .skipIfPressed x => do
      return machine.skipIf (← machine.pressed? (← machine.register? x.val))
  | .skipUnlessPressed x => do
      return machine.skipIf (!(← machine.pressed? (← machine.register? x.val)))
  | .readDelay x => machine.assign? x.val machine.delay
  | .setDelay x => do return { machine with delay := ← machine.register? x.val }
  | .setSound x => do return { machine with sound := ← machine.register? x.val }
  | .advanceIndex x => do
      return { machine with index := machine.index + (← machine.register? x.val).toUInt16 }
  | .pointToGlyph x => do
      return { machine with
        index := (← machine.register? x.val).toUInt16 * UInt16.ofNat glyphHeight }
  | .storeDecimal x => do
      let value ← machine.register? x.val
      let hundreds ← machine.store? machine.index.toNat (value / 100)
      let tens ← hundreds.store? (machine.index.toNat + 1) (value / 10 % 10)
      tens.store? (machine.index.toNat + 2) (value % 10)
  | .storeRegisters last =>
      (List.range (last.val + 1)).foldlM (fun stored number => stored.storeRegister? number) machine
  | .loadRegisters last =>
      (List.range (last.val + 1)).foldlM (fun loaded number => loaded.loadRegister? number) machine

/-- Both operand registers are looked up for every opcode, by the numbers that its masks cut out. -/
def execute? (machine : Machine) (opcode : Opcode) : Option Machine := do
  let _ ← machine.register? ((opcode &&& 0x0F00) >>> 8).toNat
  let _ ← machine.register? ((opcode &&& 0x00F0) >>> 4).toNat
  match Instruction.decode? opcode with
  | none => return machine.advance.halt .unknownOpcode opcode
  | some instruction =>
      match instruction.fault? machine with
      | some fault => return machine.advance.halt fault opcode
      | none => machine.advance.perform? instruction

def step? (machine : Machine) : Option Machine :=
  if machine.running then
    if machine.pc.toNat + 2 ≤ Memory.size then do
      let high ← machine.byte? machine.pc.toNat
      let low ← machine.byte? (machine.pc.toNat + 1)
      machine.execute? (high.toUInt16 <<< 8 ||| low.toUInt16)
    else some ({ machine with faultAddress := machine.pc }.halt .memoryOutOfRange 0)
  else some machine

def runSteps? (machine : Machine) : Nat → Option Machine
  | 0 => some machine
  | count + 1 => do
      if machine.running then (← machine.step?).runSteps? count else return machine

def runFrame? (machine : Machine) (speed : Int) : Option Machine := do
  let stepped ← machine.runSteps? speed.toNat
  return if stepped.running then stepped.tickTimers else stepped

/-- The wait register is used as it stands. -/
def keyDown? (machine : Machine) (key : UInt8) : Option Machine :=
  if key < 16 then do
    let held ← machine.hold? key true
    match held.mode with
    | .running => return held
    | .awaitingKey => return { (← held.assign? held.waitRegister.val key) with mode := .running }
  else some machine

def keyUp? (machine : Machine) (key : UInt8) : Option Machine :=
  machine.hold? key false

end Machine

/-- An action may execute an opcode that stands nowhere in memory. -/
inductive Action
  | step
  | execute (opcode : Opcode)
  | keyDown (key : UInt8)
  | keyUp (key : UInt8)
  | frame (speed : Int)
deriving DecidableEq

namespace Machine

def act (machine : Machine) : Action → Machine
  | .step => machine.step
  | .execute opcode => machine.execute opcode
  | .keyDown key => machine.keyDown key
  | .keyUp key => machine.keyUp key
  | .frame speed => machine.runFrame speed

/-- A checked action fails when it makes an access outside an array. -/
def act? (machine : Machine) : Action → Option Machine
  | .step => machine.step?
  | .execute opcode => machine.execute? opcode
  | .keyDown key => machine.keyDown? key
  | .keyUp key => machine.keyUp? key
  | .frame speed => machine.runFrame? speed

end Machine

end Chip8
