import Chip8.Proofs.Trail

/-!
This file holds the registers that are saved in memory. Two instructions write to memory, each of
them a block at the index, so that a saved block lasts as long as all later blocks miss it. A load
then brings the registers back.
-/

namespace Chip8

/-- The opcode `Fx55` saves the registers up to `x`. -/
def Opcode.saving (last : Register) : Opcode := 0xF055 + 256 * UInt16.ofNat last.val

/-- The opcode `Fx65` loads the registers up to `x`. -/
def Opcode.loading (last : Register) : Opcode := 0xF065 + 256 * UInt16.ofNat last.val

namespace Instruction

theorem decode?_saving : ∀ last : Register,
    decode? (Opcode.saving last) = some (.storeRegisters last) := by
  decide

theorem decode?_loading : ∀ last : Register,
    decode? (Opcode.loading last) = some (.loadRegisters last) := by
  decide

/-- Two instructions store a block that starts at the index. -/
def stored? : Instruction → Option Nat
  | .storeDecimal _ => some 3
  | .storeRegisters last => some (last.val + 1)
  | _ => none

/-- No other instruction writes to memory. -/
theorem memory_mem_writes {instruction : Instruction} {machine : Machine} {address : Nat}
    (written : Place.memory address ∈ instruction.writes machine) :
    ∃ length, instruction.stored? = some length ∧ machine.index.toNat ≤ address ∧
      address < machine.index.toNat + length := by
  cases instruction with
  | storeDecimal x => exact ⟨3, rfl, mem_memoryBlock.mp written⟩
  | storeRegisters last => exact ⟨last.val + 1, rfl, mem_memoryBlock.mp written⟩
  | _ => simp [writes] at written

end Instruction

namespace Machine

/-- The next step may store a block, which then misses the given one. -/
def StoresApart (machine : Machine) (address length : Nat) : Prop :=
  ∀ stored ∈ machine.executing?.bind Instruction.stored?,
    machine.index.toNat + stored ≤ address ∨ address + length ≤ machine.index.toNat

instance (machine : Machine) (address length : Nat) :
    Decidable (machine.StoresApart address length) :=
  inferInstanceAs (Decidable (∀ _ ∈ _, _))

/-- The registers up to the last one have their values in memory. -/
def Saves (values : Register → UInt8) (last : Register) (address : Nat) (machine : Machine) : Prop :=
  ∀ target ≤ last, machine.memory.read (address + target.val) = values target

namespace Saves

variable {values : Register → UInt8} {last : Register} {address : Nat}

theorem step (machine : Machine) (apart : machine.StoresApart address (last.val + 1))
    (saves : machine.Saves values last address) : machine.step.Saves values last address := by
  intro target within
  have kept : machine.step.content (.memory (address + target.val)) =
      machine.content (.memory (address + target.val)) := by
    apply content_step (by simp [cyclePlaces])
    intro instruction executes written
    obtain ⟨stored, length, above, below⟩ := Instruction.memory_mem_writes written
    have missed := apart stored (by rw [executes]; exact length)
    have inside : target.val ≤ last.val := within
    change machine.index.toNat ≤ address + target.val at above
    change address + target.val < machine.index.toNat + stored at below
    omega
  exact kept.trans (saves target within)

theorem keyDown (machine : Machine) (key : UInt8) (saves : machine.Saves values last address) :
    (machine.keyDown key).Saves values last address := by
  rw [machine.keyDown_eq key]
  exact saves

/-- A saved block reaches every machine of a play before which no other block was stored over it. -/
theorem of_play {system : System} {moves : List Move}
    (saves : system.machine.Saves values last address)
    {earlier rest : List Machine} {later : Machine}
    (visited : system.trail moves ++ [(system.play moves).1.machine] = earlier ++ later :: rest)
    (apart : ∀ between ∈ earlier, between.StoresApart address (last.val + 1)) :
    later.Saves values last address := by
  have kept := System.keptAlong_play step (fun _ saves => saves) keyDown (fun _ _ saves => saves)
    system moves saves
  rw [visited] at kept
  exact kept.holds apart

/-- Every register up to the last one is stored at its own distance from the index. -/
theorem storeRegisters (machine : Machine) (last : Register)
    (room : machine.index.toNat + last.val + 1 ≤ Memory.size) :
    (machine.storeRegisters last).Saves machine.register last machine.index.toNat := by
  intro target within
  have length := machine.length_registers_take last
  have inside : target.val ≤ last.val := within
  refine (machine.memory.read_writeAll_inside _ _ _ (by omega) (by omega)).trans ?_
  simp [register]

/-- Registers that are already in memory are stored without effect. -/
theorem storeRegisters_eq {machine : Machine} {last : Register}
    (saves : machine.Saves machine.register last machine.index.toNat)
    (room : machine.index.toNat + last.val + 1 ≤ Memory.size) :
    machine.storeRegisters last = machine := by
  have stored : (machine.storeRegisters last).memory = machine.memory := by
    apply Memory.ext
    intro address _
    by_cases within : machine.index.toNat ≤ address ∧ address ≤ machine.index.toNat + last.val
    · obtain ⟨offset, rfl⟩ := Nat.exists_eq_add_of_le within.1
      have small : offset ≤ last.val := Nat.le_of_add_le_add_left within.2
      let target : Register := ⟨offset, by omega⟩
      exact (storeRegisters machine last room target small).trans (saves target small).symm
    · have length := machine.length_registers_take last
      exact machine.memory.read_writeAll_outside _ _ _ (by omega)
  exact congrArg (fun memory => { machine with memory := memory }) stored

end Saves

theorem execute_of_clear {machine : Machine} {opcode : Opcode} {instruction : Instruction}
    (decoded : Instruction.decode? opcode = some instruction)
    (clear : instruction.fault? machine = none) :
    machine.execute opcode = machine.advance.perform instruction :=
  execute_of_ok (verdict_eq_ok.mpr ⟨decoded, clear⟩)

section Opcodes

variable {machine : Machine} {last : Register}
  (room : machine.index.toNat + last.val + 1 ≤ Memory.size)

include room

theorem execute_saving :
    machine.execute (Opcode.saving last) = machine.advance.storeRegisters last :=
  execute_of_clear (Instruction.decode?_saving last) (if_pos room)

theorem execute_loading :
    machine.execute (Opcode.loading last) = machine.advance.loadRegisters last :=
  execute_of_clear (Instruction.decode?_loading last) (if_pos room)

theorem saves_execute_saving :
    (machine.execute (Opcode.saving last)).Saves machine.register last machine.index.toNat := by
  rw [execute_saving room]
  exact Saves.storeRegisters machine.advance last room

theorem execute_saving_of_saves
    (saves : machine.Saves machine.register last machine.index.toNat) :
    machine.execute (Opcode.saving last) = machine.advance := by
  have advanced : machine.advance.Saves machine.advance.register last
      machine.advance.index.toNat := fun target within => saves target within
  rw [execute_saving room]
  exact advanced.storeRegisters_eq room

/-- A load reaches the registers up to the last one. -/
theorem execute_loading_of_saves {values : Register → UInt8}
    (saves : machine.Saves values last machine.index.toNat) :
    let loaded := machine.execute (Opcode.loading last)
    loaded.memory = machine.memory ∧ loaded.index = machine.index ∧
      ∀ target, loaded.register target =
        if target ≤ last then values target else machine.register target := by
  rw [execute_loading room]
  -- An unfolding keeps the comparison away from the registers, in which the machines differ.
  refine ⟨by simp only [loadRegisters, advance], by simp only [loadRegisters, advance], ?_⟩
  intro target
  rw [register_loadRegisters]
  split
  · rename_i within
    exact saves target within
  · rfl

end Opcodes

end Machine

/-- Saved registers are loaded unchanged after any play that stores nothing over them. A second save
then only moves the program counter. -/
theorem saved_registers_survive (machine : Machine) (last : Register)
    (room : machine.index.toNat + last.val + 1 ≤ Memory.size) (scheduler : Scheduler)
    (moves : List Move) (earlier rest : List Machine) (later : Machine)
    (visited :
      let saved : System := ⟨machine.execute (Opcode.saving last), scheduler⟩
      saved.trail moves ++ [(saved.play moves).1.machine] = earlier ++ later :: rest)
    (apart : ∀ between ∈ earlier, between.StoresApart machine.index.toNat (last.val + 1))
    (pointed : later.index = machine.index) :
    let loaded := later.execute (Opcode.loading last)
    (∀ target ≤ last, loaded.register target = machine.register target) ∧
      (∀ target, last < target → loaded.register target = later.register target) ∧
      loaded.index = later.index ∧
      loaded.execute (Opcode.saving last) = loaded.advance := by
  have saved := Machine.saves_execute_saving room
  have reached : later.Saves machine.register last machine.index.toNat := saved.of_play visited apart
  rw [← pointed] at reached room
  obtain ⟨memory, index, registers⟩ := Machine.execute_loading_of_saves room reached
  intro loaded
  have restored (target : Register) (within : target ≤ last) :
      loaded.register target = machine.register target := by
    rw [registers, if_pos within]
  refine ⟨restored, ?above, index, ?again⟩
  case above =>
    intro target above
    rw [registers, if_neg (Fin.not_le.mpr above)]
  case again =>
    rw [← index] at room
    apply Machine.execute_saving_of_saves room
    intro target within
    rw [memory, index, restored target within]
    exact reached target within

/-- Other blocks are stored right below and right above the saved one. -/
theorem saved_registers_survive_between_blocks :
    let machine := { Machine.fresh (MersenneTwister.seeded 0) with
      memory := Memory.zeroed.writeAll 0x202
        [0x60, 0x63, 0xA2, 0x10, 0xF0, 0x33, 0xA2, 0x16, 0xF2, 0x55, 0xA2, 0x13]
      registers := Vector.ofFn fun target : Register => UInt8.ofNat (target.val + 7)
      index := 0x213 }
    let later := (System.play ⟨machine.execute (Opcode.saving 2), { speed := 5 }⟩
      [.frame, .keyDown 4, .tickTimers, .step]).1.machine
    let loaded := later.execute (Opcode.loading 2)
    later.register 0 = 0x63 ∧ loaded.register 0 = 7 ∧ loaded.register 2 = 9 ∧
      loaded.execute (Opcode.saving 2) = loaded.advance := by
  intro machine later loaded
  obtain ⟨restored, _, _, again⟩ := saved_registers_survive machine 2 (by decide +kernel)
    { speed := 5 } [.frame, .keyDown 4, .tickTimers, .step] _ [] later rfl (by decide +kernel)
    (by decide +kernel)
  refine ⟨by decide +kernel, ?first, ?last, again⟩
  case first => exact (restored 0 (by decide)).trans (by decide +kernel)
  case last => exact (restored 2 (by decide)).trans (by decide +kernel)

end Chip8
