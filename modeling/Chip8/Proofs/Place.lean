import Chip8.Execution

/-!
This file holds the places of a machine, which are the parts that an operation may change. A place
is read and assigned on its own, and all places together are the whole machine.
-/

namespace Chip8

theorem setIfInBounds_of_lt {Cell : Type} {size place : Nat} (cells : Vector Cell size)
    (value : Cell) (inside : place < size) :
    cells.setIfInBounds place value = cells.set place value := by
  apply Vector.ext
  intro other _
  simp only [Vector.getElem_setIfInBounds, Vector.getElem_set]

/-- A register and a byte of memory are places of their own. -/
inductive Place
  | register (target : Register)
  | index
  | pc
  | stack
  | delay
  | sound
  | memory (address : Nat)
  | display
  | keypad
  | mode
  | waitRegister
  | halted
  | fault
  | faultAddress
  | faultOpcode
  | generator
deriving DecidableEq

/-- Every place holds values of its own type. -/
abbrev Place.Content : Place → Type
  | .register _ => UInt8
  | .index => UInt16
  | .pc => UInt16
  | .stack => List UInt16
  | .delay => UInt8
  | .sound => UInt8
  | .memory _ => UInt8
  | .display => Display
  | .keypad => Keypad
  | .mode => Mode
  | .waitRegister => Fin 256
  | .halted => Bool
  | .fault => Option Fault
  | .faultAddress => UInt16
  | .faultOpcode => Opcode
  | .generator => MersenneTwister

/-- Every place but a byte above the memory can be assigned. -/
def Place.Inside : Place → Prop
  | .memory address => address < 4096
  | _ => True

namespace Machine

def content (machine : Machine) : (place : Place) → place.Content
  | .register target => machine.register target
  | .index => machine.index
  | .pc => machine.pc
  | .stack => machine.stack
  | .delay => machine.delay
  | .sound => machine.sound
  | .memory address => machine.memory.read address
  | .display => machine.display
  | .keypad => machine.keypad
  | .mode => machine.mode
  | .waitRegister => machine.waitRegister
  | .halted => machine.halted
  | .fault => machine.fault
  | .faultAddress => machine.faultAddress
  | .faultOpcode => machine.faultOpcode
  | .generator => machine.generator

def put (machine : Machine) : (place : Place) → place.Content → Machine
  | .register target, value => machine.setRegister target value
  | .index, value => { machine with index := value }
  | .pc, value => { machine with pc := value }
  | .stack, value => { machine with stack := value }
  | .delay, value => { machine with delay := value }
  | .sound, value => { machine with sound := value }
  | .memory address, value => { machine with memory := machine.memory.write address value }
  | .display, value => { machine with display := value }
  | .keypad, value => { machine with keypad := value }
  | .mode, value => { machine with mode := value }
  | .waitRegister, value => { machine with waitRegister := value }
  | .halted, value => { machine with halted := value }
  | .fault, value => { machine with fault := value }
  | .faultAddress, value => { machine with faultAddress := value }
  | .faultOpcode, value => { machine with faultOpcode := value }
  | .generator, value => { machine with generator := value }

/-- No part of a machine lies outside its places. -/
theorem eq_of_content {first second : Machine}
    (same : ∀ place, first.content place = second.content place) : first = second := by
  have registers : first.registers = second.registers := by
    apply Vector.ext
    intro number inside
    exact same (.register ⟨number, inside⟩)
  have memory : first.memory = second.memory :=
    Memory.ext fun address _ => same (.memory address)
  cases first
  cases second
  simp only [mk.injEq]
  exact ⟨registers, same .index, same .pc, same .stack, same .delay, same .sound, memory,
    same .display, same .keypad, same .mode, same .waitRegister, same .halted, same .fault,
    same .faultAddress, same .faultOpcode, same .generator⟩

/-- An assignment is seen at its own place. -/
theorem content_put_self (machine : Machine) (place : Place) (value : place.Content)
    (inside : place.Inside) : (machine.put place value).content place = value := by
  cases place with
  | register target => exact (machine.register_setRegister target target value).trans (if_pos rfl)
  | memory address =>
      exact (machine.memory.read_write address address value).trans (if_pos ⟨rfl, inside⟩)
  | _ => rfl

/-- An assignment is seen at its own place only. -/
theorem content_put_of_ne (machine : Machine) (place : Place) {query : Place}
    (value : place.Content) (apart : query ≠ place) :
    (machine.put place value).content query = machine.content query := by
  cases place with
  | register target =>
      cases query with
      | register other =>
          have different : target ≠ other := fun same => apart (congrArg Place.register same.symm)
          exact (machine.register_setRegister target other value).trans (if_neg different)
      | _ => rfl
  | memory address =>
      cases query with
      | memory other =>
          have different : ¬ (address = other ∧ other < Memory.size) :=
            fun same => apart (congrArg Place.memory same.1.symm)
          exact (machine.memory.read_write address other value).trans (if_neg different)
      | _ => rfl
  | _ => cases query <;> simp_all [content, put, register]

end Machine

end Chip8
