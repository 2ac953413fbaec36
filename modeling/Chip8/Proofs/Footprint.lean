import Chip8.Proofs.Place

/-!
This file holds the footprint of the instruction cycle. Every instruction names the places that it
may assign, and it leaves all other places alone.
-/

namespace Chip8

/-- A block of memory has one place for each of its bytes. -/
def memoryBlock (address length : Nat) : List Place :=
  (List.range length).map fun offset => .memory (address + offset)

/-- The registers up to the last one are listed from the first. -/
def registersUpTo (last : Register) : List Register :=
  (List.finRange 16).filter (· ≤ last)

theorem mem_memoryBlock {address length : Nat} {query : Nat} :
    Place.memory query ∈ memoryBlock address length ↔
      address ≤ query ∧ query < address + length := by
  simp only [memoryBlock, List.mem_map, List.mem_range, Place.memory.injEq]
  constructor
  · rintro ⟨offset, inside, rfl⟩
    omega
  · intro inside
    exact ⟨query - address, by omega, by omega⟩

theorem mem_registersUpTo {last target : Register} :
    target ∈ registersUpTo last ↔ target ≤ last := by
  simp [registersUpTo]

/-- The advance of the program counter belongs to every instruction and is not listed. -/
def Instruction.writes (machine : Machine) : Instruction → List Place
  | .ignore => []
  | .clearDisplay => [.display]
  | .leaveRoutine => [.pc, .stack]
  | .jump _ => [.pc]
  | .call _ => [.stack, .pc]
  | .skipIfByte _ _ => [.pc]
  | .skipUnlessByte _ _ => [.pc]
  | .skipIfEqual _ _ => [.pc]
  | .skipUnlessEqual _ _ => [.pc]
  | .setByte x _ => [.register x]
  | .addByte x _ => [.register x]
  | .copy x _ => [.register x]
  | .bitOr x _ => [.register x]
  | .bitAnd x _ => [.register x]
  | .bitXor x _ => [.register x]
  | .add x _ => [.register flagRegister, .register x]
  | .subtract x _ => [.register flagRegister, .register x]
  | .shiftRight x => [.register flagRegister, .register x]
  | .subtractFrom x _ => [.register flagRegister, .register x]
  | .shiftLeft x => [.register flagRegister, .register x]
  | .setIndex _ => [.index]
  | .jumpFromFirst _ => [.pc]
  | .random x _ => [.generator, .register x]
  | .draw _ _ => [.register flagRegister, .display]
  | .skipIfPressed _ => [.pc]
  | .skipUnlessPressed _ => [.pc]
  | .readDelay x => [.register x]
  | .awaitKey _ => [.mode, .waitRegister]
  | .setDelay _ => [.delay]
  | .setSound _ => [.sound]
  | .advanceIndex _ => [.index]
  | .pointToGlyph _ => [.index]
  | .storeDecimal _ => memoryBlock machine.index.toNat 3
  | .storeRegisters last => memoryBlock machine.index.toNat (last.val + 1)
  | .loadRegisters last => (registersUpTo last).map .register

namespace Machine

theorem content_setRegister (machine : Machine) {target : Register} {place : Place} (value : UInt8)
    (apart : place ≠ .register target) :
    (machine.setRegister target value).content place = machine.content place :=
  machine.content_put_of_ne (.register target) value apart

/-- The second assignment may be to the same register as the first. -/
theorem content_setRegister_twice (machine : Machine) {first second : Register} {place : Place}
    (firstValue secondValue : UInt8) (notFirst : place ≠ .register first)
    (notSecond : place ≠ .register second) :
    ((machine.setRegister first firstValue).setRegister second secondValue).content place =
      machine.content place := by
  rw [content_setRegister _ secondValue notSecond, content_setRegister _ firstValue notFirst]

theorem content_skipIf (machine : Machine) {place : Place} (condition : Bool)
    (apart : place ≠ .pc) : (machine.skipIf condition).content place = machine.content place := by
  cases condition with
  | false => rfl
  | true => exact machine.content_put_of_ne .pc _ apart

/-- A jump and a change of the stack may come in either order. -/
theorem content_pc_stack (machine : Machine) {place : Place} (address : UInt16)
    (stack : List UInt16) (notCounter : place ≠ .pc) (notStack : place ≠ .stack) :
    ({ machine with pc := address, stack := stack }).content place = machine.content place :=
  ((machine.put .pc address).content_put_of_ne .stack stack notStack).trans
    (machine.content_put_of_ne .pc address notCounter)

theorem content_leaveRoutine (machine : Machine) {place : Place} (notCounter : place ≠ .pc)
    (notStack : place ≠ .stack) : machine.leaveRoutine.content place = machine.content place := by
  unfold leaveRoutine
  split
  · rfl
  · exact machine.content_pc_stack _ _ notCounter notStack

theorem content_random (machine : Machine) (x : Register) (mask : UInt8) {place : Place}
    (notGenerator : place ≠ .generator) (notTarget : place ≠ .register x) :
    (machine.random x mask).content place = machine.content place :=
  (content_setRegister _ _ notTarget).trans (machine.content_put_of_ne .generator _ notGenerator)

theorem content_drawPixel (machine : Machine) (origin : Register) (offset : Nat × Nat)
    {place : Place} (notFlag : place ≠ .register flagRegister) (notDisplay : place ≠ .display) :
    (machine.drawPixel origin offset).content place = machine.content place := by
  have drawn (display : Display) :
      ({ machine with display := display }).content place = machine.content place :=
    machine.content_put_of_ne .display display notDisplay
  unfold drawPixel
  dsimp only
  split
  · exact (content_setRegister _ 1 notFlag).trans (drawn _)
  · exact drawn _

theorem content_drawPixels (machine : Machine) (origin : Register) (offsets : List (Nat × Nat))
    {place : Place} (notFlag : place ≠ .register flagRegister) (notDisplay : place ≠ .display) :
    (machine.drawPixels origin offsets).content place = machine.content place := by
  induction offsets generalizing machine with
  | nil => rfl
  | cons offset rest inductionHypothesis =>
      exact (inductionHypothesis (machine.drawPixel origin offset)).trans
        (machine.content_drawPixel origin offset notFlag notDisplay)

theorem content_draw (machine : Machine) (origin : Register) (height : Nat) {place : Place}
    (notFlag : place ≠ .register flagRegister) (notDisplay : place ≠ .display) :
    (machine.draw origin height).content place = machine.content place :=
  (content_drawPixels _ origin _ notFlag notDisplay).trans (machine.content_setRegister 0 notFlag)

theorem content_writeAll (machine : Machine) (address : Nat) (values : List UInt8) {place : Place}
    (outside : place ∉ memoryBlock address values.length) :
    ({ machine with memory := machine.memory.writeAll address values }).content place =
      machine.content place := by
  cases place with
  | memory query =>
      rw [mem_memoryBlock] at outside
      exact machine.memory.read_writeAll_outside address query values (by omega)
  | _ => rfl

theorem register_loadRegisters (machine : Machine) (last target : Register) :
    (machine.loadRegisters last).register target =
      if target ≤ last then machine.memory.read (machine.index.toNat + target.val)
      else machine.register target := by
  simp only [loadRegisters, register, Fin.getElem_fin, Vector.getElem_ofFn, Fin.eta]

theorem content_loadRegisters (machine : Machine) (last : Register) {place : Place}
    (outside : place ∉ (registersUpTo last).map Place.register) :
    (machine.loadRegisters last).content place = machine.content place := by
  cases place with
  | register target =>
      have above : ¬ target ≤ last := fun within =>
        outside (List.mem_map_of_mem (mem_registersUpTo.mpr within))
      simp only [content]
      rw [register_loadRegisters, if_neg above]
  | _ => simp only [content, loadRegisters]

theorem length_registers_take (machine : Machine) (last : Register) :
    (machine.registers.toList.take (last.val + 1)).length = last.val + 1 := by
  have within := last.isLt
  simp only [List.length_take, Vector.length_toList]
  omega

/-- An instruction leaves every place outside its footprint alone. -/
theorem content_perform (machine : Machine) (instruction : Instruction) {place : Place}
    (outside : place ∉ instruction.writes machine) :
    (machine.perform instruction).content place = machine.content place := by
  cases instruction with
  | ignore => rfl
  | clearDisplay => exact machine.content_put_of_ne .display _ (List.ne_of_not_mem_cons outside)
  | leaveRoutine =>
      exact machine.content_leaveRoutine (List.ne_of_not_mem_cons outside)
        (List.ne_of_not_mem_cons (List.not_mem_of_not_mem_cons outside))
  | call target =>
      exact machine.content_pc_stack target _
        (List.ne_of_not_mem_cons (List.not_mem_of_not_mem_cons outside))
        (List.ne_of_not_mem_cons outside)
  | jump _ | jumpFromFirst _ =>
      exact machine.content_put_of_ne .pc _ (List.ne_of_not_mem_cons outside)
  | skipIfByte _ _ | skipUnlessByte _ _ | skipIfEqual _ _ | skipUnlessEqual _ _
  | skipIfPressed _ | skipUnlessPressed _ =>
      exact machine.content_skipIf _ (List.ne_of_not_mem_cons outside)
  | setByte _ _ | addByte _ _ | copy _ _ | bitOr _ _ | bitAnd _ _ | bitXor _ _ | readDelay _ =>
      exact machine.content_setRegister _ (List.ne_of_not_mem_cons outside)
  | add _ _ | subtract _ _ | subtractFrom _ _ | shiftRight _ | shiftLeft _ =>
      exact machine.content_setRegister_twice _ _ (List.ne_of_not_mem_cons outside)
        (List.ne_of_not_mem_cons (List.not_mem_of_not_mem_cons outside))
  | setIndex _ | advanceIndex _ | pointToGlyph _ =>
      exact machine.content_put_of_ne .index _ (List.ne_of_not_mem_cons outside)
  | setDelay _ => exact machine.content_put_of_ne .delay _ (List.ne_of_not_mem_cons outside)
  | setSound _ => exact machine.content_put_of_ne .sound _ (List.ne_of_not_mem_cons outside)
  | random x mask =>
      exact machine.content_random x mask (List.ne_of_not_mem_cons outside)
        (List.ne_of_not_mem_cons (List.not_mem_of_not_mem_cons outside))
  | draw origin height =>
      exact machine.content_draw origin height.val (List.ne_of_not_mem_cons outside)
        (List.ne_of_not_mem_cons (List.not_mem_of_not_mem_cons outside))
  | awaitKey x =>
      exact ((machine.put .mode .awaitingKey).content_put_of_ne .waitRegister _
          (List.ne_of_not_mem_cons (List.not_mem_of_not_mem_cons outside))).trans
        (machine.content_put_of_ne .mode _ (List.ne_of_not_mem_cons outside))
  | storeDecimal _ => exact machine.content_writeAll _ _ outside
  | storeRegisters last =>
      refine machine.content_writeAll _ _ ?_
      rw [length_registers_take]
      exact outside
  | loadRegisters last => exact machine.content_loadRegisters last outside

end Machine

end Chip8
