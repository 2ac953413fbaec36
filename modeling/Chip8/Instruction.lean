/-!
This file holds the instruction set: the fields of a 16-bit opcode, the instructions, and the
table that assigns an instruction to an opcode. An opcode outside the table has no instruction.
-/

namespace Chip8

/-- The machine has sixteen byte registers, `V0` to `VF`. -/
abbrev Register := Fin 16

/-- The first register is the offset of one kind of jump. -/
def firstRegister : Register := 0

/-- The last register receives carries, borrows, shifted bits and collisions. -/
def flagRegister : Register := 15

/-- The number of a register fits into one byte. -/
def Register.toByte (target : Register) : Fin 256 :=
  target.castLE (by decide)

/-- An opcode is one big-endian word of the program. -/
abbrev Opcode := UInt16

/-- The leading digit selects the family of an opcode. -/
def Opcode.family (opcode : Opcode) : Fin 16 :=
  Fin.ofNat 16 (opcode >>> 12).toNat

/-- The second digit names the first register. -/
def Opcode.x (opcode : Opcode) : Register :=
  Fin.ofNat 16 (opcode >>> 8).toNat

/-- The third digit names the second register. -/
def Opcode.y (opcode : Opcode) : Register :=
  Fin.ofNat 16 (opcode >>> 4).toNat

/-- The last digit is a count or a selector. -/
def Opcode.nibble (opcode : Opcode) : Fin 16 :=
  Fin.ofNat 16 opcode.toNat

/-- The low byte is an immediate value or a selector. -/
def Opcode.byte (opcode : Opcode) : UInt8 :=
  opcode.toUInt8

/-- The low twelve bits are an address. -/
def Opcode.address (opcode : Opcode) : UInt16 :=
  opcode &&& 0x0FFF

/-- An address operand reaches every byte of memory and nothing above it. -/
theorem Opcode.address_lt (opcode : Opcode) : opcode.address.toNat < 4096 := by
  have bounded : opcode.toNat &&& 0x0FFF < 2 ^ 12 :=
    Nat.and_lt_two_pow opcode.toNat (by decide)
  simpa [Opcode.address] using bounded

/-- Each instruction carries only the operands that it uses. -/
inductive Instruction
  | ignore
  | clearDisplay
  | leaveRoutine
  | jump (target : UInt16)
  | call (target : UInt16)
  | skipIfByte (x : Register) (value : UInt8)
  | skipUnlessByte (x : Register) (value : UInt8)
  | skipIfEqual (x y : Register)
  | setByte (x : Register) (value : UInt8)
  | addByte (x : Register) (value : UInt8)
  | copy (x y : Register)
  | bitOr (x y : Register)
  | bitAnd (x y : Register)
  | bitXor (x y : Register)
  | add (x y : Register)
  | subtract (x y : Register)
  | shiftRight (x : Register)
  | subtractFrom (x y : Register)
  | shiftLeft (x : Register)
  | skipUnlessEqual (x y : Register)
  | setIndex (target : UInt16)
  | jumpFromFirst (target : UInt16)
  | random (x : Register) (mask : UInt8)
  | draw (origin : Register) (height : Fin 16)
  | skipIfPressed (x : Register)
  | skipUnlessPressed (x : Register)
  | readDelay (x : Register)
  | awaitKey (x : Register)
  | setDelay (x : Register)
  | setSound (x : Register)
  | advanceIndex (x : Register)
  | pointToGlyph (x : Register)
  | storeDecimal (x : Register)
  | storeRegisters (last : Register)
  | loadRegisters (last : Register)
deriving DecidableEq

namespace Instruction

/-- The first family clears the display, leaves a routine, or does nothing. -/
def ofSystem (opcode : Opcode) : Instruction :=
  if opcode = 0x00E0 then .clearDisplay
  else if opcode = 0x00EE then .leaveRoutine
  else .ignore

/-- The last digit selects the register operation. -/
def ofArithmetic? (opcode : Opcode) : Option Instruction :=
  match opcode.nibble with
  | 0x0 => some (.copy opcode.x opcode.y)
  | 0x1 => some (.bitOr opcode.x opcode.y)
  | 0x2 => some (.bitAnd opcode.x opcode.y)
  | 0x3 => some (.bitXor opcode.x opcode.y)
  | 0x4 => some (.add opcode.x opcode.y)
  | 0x5 => some (.subtract opcode.x opcode.y)
  | 0x6 => some (.shiftRight opcode.x)
  | 0x7 => some (.subtractFrom opcode.x opcode.y)
  | 0xE => some (.shiftLeft opcode.x)
  | _ => none

/-- The low byte selects the test of a held key. -/
def ofKeypad? (opcode : Opcode) : Option Instruction :=
  match opcode.byte with
  | 0x9E => some (.skipIfPressed opcode.x)
  | 0xA1 => some (.skipUnlessPressed opcode.x)
  | _ => none

/-- The low byte selects the timer, index and memory operation. -/
def ofDevice? (opcode : Opcode) : Option Instruction :=
  match opcode.byte with
  | 0x07 => some (.readDelay opcode.x)
  | 0x0A => some (.awaitKey opcode.x)
  | 0x15 => some (.setDelay opcode.x)
  | 0x18 => some (.setSound opcode.x)
  | 0x1E => some (.advanceIndex opcode.x)
  | 0x29 => some (.pointToGlyph opcode.x)
  | 0x33 => some (.storeDecimal opcode.x)
  | 0x55 => some (.storeRegisters opcode.x)
  | 0x65 => some (.loadRegisters opcode.x)
  | _ => none

/-- The table reads no last digit in the two register comparisons, and its final row is the
family `F`. -/
def decode? (opcode : Opcode) : Option Instruction :=
  match opcode.family with
  | 0x0 => some (ofSystem opcode)
  | 0x1 => some (.jump opcode.address)
  | 0x2 => some (.call opcode.address)
  | 0x3 => some (.skipIfByte opcode.x opcode.byte)
  | 0x4 => some (.skipUnlessByte opcode.x opcode.byte)
  | 0x5 => some (.skipIfEqual opcode.x opcode.y)
  | 0x6 => some (.setByte opcode.x opcode.byte)
  | 0x7 => some (.addByte opcode.x opcode.byte)
  | 0x8 => ofArithmetic? opcode
  | 0x9 => some (.skipUnlessEqual opcode.x opcode.y)
  | 0xA => some (.setIndex opcode.address)
  | 0xB => some (.jumpFromFirst opcode.address)
  | 0xC => some (.random opcode.x opcode.byte)
  | 0xD => some (.draw opcode.y opcode.nibble)
  | 0xE => ofKeypad? opcode
  | _ => ofDevice? opcode

end Instruction

end Chip8
