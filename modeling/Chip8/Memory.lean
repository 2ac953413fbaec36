/-!
This file holds the byte memory. Addresses are natural numbers: a read above the memory gives
zero and a write above it changes nothing, so that every operation is described by its reads.
-/

namespace Chip8

/-- The memory is one block of 4096 bytes. -/
structure Memory where
  bytes : Vector UInt8 4096
deriving DecidableEq

namespace Memory

/-- The memory spans twelve address bits. -/
def size : Nat := 4096

/-- Programs start above the first 512 bytes. -/
def programStart : Nat := 0x200

def zeroed : Memory := ⟨Vector.replicate 4096 0⟩

def read (memory : Memory) (address : Nat) : UInt8 :=
  memory.bytes[address]?.getD 0

/-- A word has its high byte first. -/
def word (memory : Memory) (address : Nat) : UInt16 :=
  (memory.read address).toUInt16 <<< 8 ||| (memory.read (address + 1)).toUInt16

def write (memory : Memory) (address : Nat) (value : UInt8) : Memory :=
  ⟨memory.bytes.setIfInBounds address value⟩

/-- Consecutive bytes go to consecutive addresses. -/
def writeAll (memory : Memory) (address : Nat) : List UInt8 → Memory
  | [] => memory
  | value :: rest => (memory.write address value).writeAll (address + 1) rest

@[ext]
theorem ext {first second : Memory}
    (same : ∀ address < size, first.read address = second.read address) : first = second := by
  cases first with
  | mk firstBytes =>
    cases second with
    | mk secondBytes =>
      congr 1
      apply Vector.ext
      intro address inside
      simpa [read, inside] using same address inside

theorem read_zeroed (address : Nat) : zeroed.read address = 0 := by
  by_cases inside : address < 4096 <;> simp [read, zeroed, inside]

/-- A write is seen at its own address when that address is inside the memory. -/
theorem read_write (memory : Memory) (address query : Nat) (value : UInt8) :
    (memory.write address value).read query =
      if address = query ∧ query < size then value else memory.read query := by
  by_cases inside : query < 4096
  · by_cases hit : address = query
    · simp [read, write, size, inside, hit]
    · simp [read, write, size, inside, hit]
  · simp [read, write, size, inside]

/-- A block of writes leaves every byte outside the block. -/
theorem read_writeAll_outside (memory : Memory) (address query : Nat) (values : List UInt8)
    (outside : query < address ∨ address + values.length ≤ query) :
    (memory.writeAll address values).read query = memory.read query := by
  induction values generalizing memory address with
  | nil => rfl
  | cons value rest inductionHypothesis =>
      simp only [List.length_cons] at outside
      rw [writeAll, inductionHypothesis _ _ (by omega), read_write, if_neg (by omega)]

/-- A block of writes that fits is read back byte by byte. -/
theorem read_writeAll_inside (memory : Memory) (address offset : Nat) (values : List UInt8)
    (within : offset < values.length) (fits : address + values.length ≤ size) :
    (memory.writeAll address values).read (address + offset) = values[offset] := by
  induction values generalizing memory address offset with
  | nil => simp at within
  | cons value rest inductionHypothesis =>
      simp only [List.length_cons] at within fits
      cases offset with
      | zero =>
          rw [writeAll, read_writeAll_outside _ _ _ _ (by omega), read_write]
          simp only [Nat.add_zero, true_and, List.getElem_cons_zero]
          rw [if_pos (by omega)]
      | succ offset =>
          rw [writeAll, show address + (offset + 1) = address + 1 + offset by omega,
            inductionHypothesis _ _ _ (by omega) (by omega)]
          rfl

end Memory

end Chip8
