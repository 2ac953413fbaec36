import Chip8.Proofs.CheckedAccess
import Chip8.Proofs.ControlState
import Chip8.Proofs.Resting

/-!
This file shows that no action makes an access outside an array. The fault condition of an
instruction keeps its block of memory inside the memory, the clipping of points keeps the pixels
inside the picture, and the wait register names a register.
-/

namespace Chip8

section Arrays

variable {Cell : Type} {size : Nat} (cells : Vector Cell size) {place : Nat} (inside : place < size)

theorem readCell?_of_lt : readCell? cells place = some (cells.get ⟨place, inside⟩) := by
  rw [readCell?, dif_pos (by omega)]
  rfl

theorem writeCell?_of_lt (value : Cell) :
    writeCell? cells place value = some (cells.set place value inside) := by
  rw [writeCell?, dif_pos (by omega)]
  rfl

end Arrays

/-- A checked loop succeeds when each of its rounds leads to the next state of a sequence. -/
theorem foldlM_range_eq {State : Type} {step : State → Nat → Option State}
    (reached : Nat → State) {start : State} (begun : reached 0 = start) {count : Nat}
    (round : ∀ number < count, step (reached number) number = some (reached (number + 1))) :
    (List.range count).foldlM step start = some (reached count) := by
  induction count with
  | zero => exact congrArg some begun.symm
  | succ count inductionHypothesis =>
      have before := inductionHypothesis fun number below => round number (Nat.lt_succ_of_lt below)
      rw [List.range_succ, List.foldlM_append, before, Option.bind_eq_bind, Option.bind_some,
        List.foldlM_cons, round count (Nat.lt_succ_self count)]
      rfl

theorem Memory.writeAll_append (memory : Memory) (address : Nat) (first second : List UInt8) :
    memory.writeAll address (first ++ second) =
      (memory.writeAll address first).writeAll (address + first.length) second := by
  induction first generalizing memory address with
  | nil => rfl
  | cons value rest inductionHypothesis =>
      rw [List.cons_append, writeAll, writeAll, inductionHypothesis, List.length_cons,
        Nat.add_assoc, Nat.add_comm 1]

/-- The place of a pixel on the screen is a place in the picture. -/
theorem Display.toggle?_eq (display : Display) (x y : Int) :
    display.toggle? x y = some (display.toggle x y) := by
  unfold toggle? toggle cell?
  dsimp only
  split
  · rename_i inside
    have place : wrapOnce width x + 64 * wrapOnce height y =
        (((wrapOnce width x).toNat + 64 * (wrapOnce height y).toNat : Nat) : Int) := by omega
    have bounded : (wrapOnce width x).toNat + 64 * (wrapOnce height y).toNat < 2048 := by omega
    simp only [place, readCell?_of_lt display.pixels bounded,
      writeCell?_of_lt display.pixels bounded]
    rfl
  · rfl

/-- The rows above the last one come first. -/
theorem spriteOffsets_succ (memory : Memory) (address height : Nat) :
    spriteOffsets memory address (height + 1) =
      spriteOffsets memory address height ++
        (spriteColumns (memory.read (address + height))).map fun column => (column, height) := by
  simp only [spriteOffsets, List.range_succ, List.flatMap_append, List.flatMap_singleton]

/-- An instruction that does not fault reaches only into the memory. -/
theorem Instruction.span_inside {instruction : Instruction} {machine : Machine} {span : Nat}
    (clear : instruction.fault? machine = none) (reaches : instruction.span? = some span) :
    machine.index.toNat + span ≤ Memory.size := by
  cases instruction <;> simp_all [fault?, span?]

namespace Machine

section Accesses

variable (machine : Machine) (x : Register) (value key : UInt8) {address : Nat}

@[simp] theorem register?_val : machine.register? x.val = some (machine.register x) :=
  readCell?_of_lt machine.registers x.isLt

@[simp] theorem assign?_val : machine.assign? x.val value = some (machine.setRegister x value) := by
  simp only [assign?, writeCell?_of_lt machine.registers x.isLt]
  rfl

theorem assign?_of_lt {number : Fin 256} (named : number.val < 16) :
    machine.assign? number.val value = some (machine.storeAt number value) := by
  simp only [assign?, writeCell?_of_lt machine.registers named, storeAt,
    setIfInBounds_of_lt machine.registers value named]
  rfl

theorem byte?_of_lt (inside : address < Memory.size) :
    machine.byte? address = some (machine.memory.read address) := by
  have bounded : address < 4096 := inside
  rw [byte?, readCell?_of_lt machine.memory.bytes bounded]
  simp [Memory.read, bounded, Vector.get]

theorem store?_of_lt (inside : address < Memory.size) :
    machine.store? address value =
      some { machine with memory := machine.memory.write address value } := by
  have bounded : address < 4096 := inside
  simp only [store?, writeCell?_of_lt machine.memory.bytes bounded, Memory.write,
    setIfInBounds_of_lt machine.memory.bytes value bounded]
  rfl

theorem toNat_lt_keys {key : UInt8} : key < 16 ↔ key.toNat < 16 :=
  UInt8.lt_iff_toNat_lt

@[simp] theorem pressed?_eq : machine.pressed? key = some (machine.keypad.isPressed key) := by
  unfold pressed?
  split
  · rename_i present
    have inside := toNat_lt_keys.mp present
    rw [readCell?_of_lt machine.keypad.held inside]
    simp [Keypad.isPressed, inside, Vector.get]
  · rename_i absent
    simp [Keypad.isPressed, mt toNat_lt_keys.mpr absent]

theorem hold?_eq (down : Bool) :
    machine.hold? key down = some { machine with keypad := machine.keypad.set key down } := by
  unfold hold?
  split
  · rename_i present
    have inside := toNat_lt_keys.mp present
    simp only [writeCell?_of_lt machine.keypad.held inside, Keypad.set,
      setIfInBounds_of_lt machine.keypad.held down inside]
    rfl
  · rename_i absent
    rw [machine.keypad.set_above absent]

theorem pop?_eq (filled : machine.stack ≠ []) : machine.pop? = some machine.leaveRoutine := by
  obtain ⟨address, rest, stacked⟩ := List.exists_cons_of_ne_nil filled
  simp only [pop?, leaveRoutine, stacked]

end Accesses

section Loops

variable (machine : Machine) (origin : Register)

theorem drawPixel?_eq (offset : Nat × Nat) :
    machine.drawPixel? origin offset = some (machine.drawPixel origin offset) := by
  simp only [drawPixel?, register?_val, Display.toggle?_eq, drawPixel, Option.bind_eq_bind,
    Option.bind_some]
  split
  · exact assign?_val _ flagRegister 1
  · rfl

theorem drawPixels_append (first second : List (Nat × Nat)) :
    machine.drawPixels origin (first ++ second) =
      (machine.drawPixels origin first).drawPixels origin second :=
  List.foldl_append

theorem drawRow?_eq {row : Nat} (inside : machine.index.toNat + row < Memory.size) :
    machine.drawRow? origin row =
      some (machine.drawPixels origin
        ((spriteColumns (machine.memory.read (machine.index.toNat + row))).map
          fun column => (column, row))) := by
  simp only [drawRow?, byte?_of_lt machine inside, Option.bind_eq_bind, Option.bind_some,
    drawPixel?_eq, drawPixels, List.foldl_map]
  exact List.foldlM_pure

theorem index_drawPixels (offsets : List (Nat × Nat)) :
    (machine.drawPixels origin offsets).index = machine.index :=
  machine.content_drawPixels origin offsets (show Place.index ≠ _ by decide)
    (show Place.index ≠ _ by decide)

theorem memory_drawPixels (offsets : List (Nat × Nat)) :
    (machine.drawPixels origin offsets).memory = machine.memory :=
  Memory.ext fun address _ =>
    machine.content_drawPixels origin offsets (show Place.memory address ≠ _ by simp)
      (show Place.memory address ≠ _ by simp)

/-- No pixel changes the index or the memory, so that every row is read where the sprite stands. -/
theorem drawRows?_eq {height : Nat} (fits : machine.index.toNat + height ≤ Memory.size) :
    (List.range height).foldlM (fun drawn row => drawn.drawRow? origin row) machine =
      some (machine.drawPixels origin
        (spriteOffsets machine.memory machine.index.toNat height)) := by
  refine foldlM_range_eq (fun row => machine.drawPixels origin
    (spriteOffsets machine.memory machine.index.toNat row)) rfl ?_
  intro row below
  have inside (offsets : List (Nat × Nat)) :
      (machine.drawPixels origin offsets).index.toNat + row < Memory.size := by
    rw [index_drawPixels]
    omega
  rw [drawRow?_eq _ origin (inside _), index_drawPixels, memory_drawPixels, ← drawPixels_append,
    ← spriteOffsets_succ]

/-- The registers that are stored so far stand in one block. -/
def stored (count : Nat) : Machine :=
  { machine with
    memory := machine.memory.writeAll machine.index.toNat
      (machine.registers.toList.take count) }

theorem take_registers_succ (x : Register) :
    machine.registers.toList.take (x.val + 1) =
      machine.registers.toList.take x.val ++ [machine.register x] := by
  have present : x.val < machine.registers.toList.length := by
    rw [Vector.length_toList]
    exact x.isLt
  rw [List.take_succ_eq_append_getElem present]
  rfl

theorem storeRegister?_stored (x : Register)
    (inside : (machine.stored x.val).index.toNat + x.val < Memory.size) :
    (machine.stored x.val).storeRegister? x.val = some (machine.stored (x.val + 1)) := by
  have length : (machine.registers.toList.take x.val).length = x.val := by
    rw [List.length_take, Vector.length_toList]
    exact Nat.min_eq_left (Nat.le_of_lt x.isLt)
  have memory : (machine.stored x.val).memory.write (machine.index.toNat + x.val)
      (machine.register x) = (machine.stored (x.val + 1)).memory := by
    simp only [stored]
    rw [take_registers_succ, Memory.writeAll_append, length]
    rfl
  have written : { machine.stored x.val with
      memory := (machine.stored x.val).memory.write (machine.index.toNat + x.val)
        (machine.register x) } = machine.stored (x.val + 1) :=
    congrArg (fun memory => { machine with memory := memory }) memory
  rw [storeRegister?, register?_val, Option.bind_eq_bind, Option.bind_some,
    store?_of_lt (machine.stored x.val) _ inside, ← written]
  rfl

theorem storeRegisters?_eq (last : Register)
    (fits : machine.index.toNat + (last.val + 1) ≤ Memory.size) :
    (List.range (last.val + 1)).foldlM (fun stored number => stored.storeRegister? number) machine =
      some (machine.storeRegisters last) := by
  refine foldlM_range_eq machine.stored rfl ?_
  intro number below
  have named := last.isLt
  have inside : machine.index.toNat + number < Memory.size := by omega
  exact machine.storeRegister?_stored ⟨number, by omega⟩ inside

/-- The registers that are loaded so far are the first ones. -/
def loaded (count : Nat) : Machine :=
  { machine with
    registers := Vector.ofFn fun target : Register =>
      if target.val < count then machine.memory.read (machine.index.toNat + target.val)
      else machine.register target }

theorem loaded_zero : machine.loaded 0 = machine := by
  have unchanged : (Vector.ofFn fun target : Register => machine.register target) =
      machine.registers := Vector.ofFn_getElem
  simp [loaded, unchanged]

theorem setRegister_loaded (x : Register) :
    (machine.loaded x.val).setRegister x (machine.memory.read (machine.index.toNat + x.val)) =
      machine.loaded (x.val + 1) := by
  simp only [loaded, setRegister, mk.injEq, and_true]
  apply Vector.ext
  intro number _
  simp only [Vector.getElem_set, Vector.getElem_ofFn]
  grind

theorem loadRegister?_loaded (x : Register)
    (inside : machine.index.toNat + x.val < Memory.size) :
    (machine.loaded x.val).loadRegister? x.val = some (machine.loaded (x.val + 1)) := by
  have read : (machine.loaded x.val).byte? (machine.index.toNat + x.val) =
      some (machine.memory.read (machine.index.toNat + x.val)) := by
    simp only [byte?_of_lt _ inside, loaded]
  have sameIndex : (machine.loaded x.val).index = machine.index := by simp only [loaded]
  rw [loadRegister?, sameIndex, read, Option.bind_eq_bind, Option.bind_some, assign?_val,
    setRegister_loaded]

theorem loadRegisters?_eq (last : Register)
    (fits : machine.index.toNat + (last.val + 1) ≤ Memory.size) :
    (List.range (last.val + 1)).foldlM (fun loaded number => loaded.loadRegister? number) machine =
      some (machine.loadRegisters last) := by
  have reached : machine.loaded (last.val + 1) = machine.loadRegisters last := by
    simp only [loaded, loadRegisters, Nat.lt_succ_iff, Fin.le_def]
  rw [← reached]
  refine foldlM_range_eq machine.loaded machine.loaded_zero ?_
  intro number below
  have named := last.isLt
  have inside : machine.index.toNat + number < Memory.size := by omega
  exact machine.loadRegister?_loaded ⟨number, by omega⟩ inside

end Loops

section Operations

variable (machine : Machine)

/-- An instruction that does not fault makes no access outside an array. -/
theorem perform?_eq {instruction : Instruction} (clear : instruction.fault? machine = none) :
    machine.perform? instruction = some (machine.perform instruction) := by
  have flagAssigned (drawn : Machine) (value : UInt8) :
      drawn.assign? flagRegister.val value = some (drawn.setRegister flagRegister value) :=
    drawn.assign?_val flagRegister value
  cases instruction with
  | leaveRoutine => exact machine.pop?_eq (by simpa [Instruction.fault?] using clear)
  | draw origin height =>
      have fits := Instruction.span_inside clear rfl
      simp only [perform?, flagAssigned, Option.bind_eq_bind, Option.bind_some]
      exact drawRows?_eq (machine.setRegister flagRegister 0) origin fits
  | storeDecimal x =>
      have fits : machine.index.toNat + 3 ≤ Memory.size := Instruction.span_inside clear rfl
      have hundreds : machine.index.toNat < Memory.size := by omega
      have tens : machine.index.toNat + 1 < Memory.size := by omega
      have ones : machine.index.toNat + 2 < Memory.size := by omega
      simp only [perform?, register?_val, Option.bind_eq_bind, Option.bind_some,
        store?_of_lt _ _ hundreds, store?_of_lt _ _ tens, store?_of_lt _ _ ones]
      rfl
  | storeRegisters last => exact machine.storeRegisters?_eq last (Instruction.span_inside clear rfl)
  | loadRegisters last => exact machine.loadRegisters?_eq last (Instruction.span_inside clear rfl)
  | jumpFromFirst target =>
      simp only [perform?, machine.register?_val firstRegister, Option.bind_eq_bind,
        Option.bind_some]
      rfl
  | _ =>
      simp [perform?, perform, add, subtract, subtractFrom, shiftRight, shiftLeft, random, setFlag,
        flagAssigned]

/-- The mask and the shift of an operand give the number of a register. -/
theorem operand_number (opcode : Opcode) :
    ((opcode &&& 0x0F00) >>> 8).toNat = opcode.x.val ∧
      ((opcode &&& 0x00F0) >>> 4).toNat = opcode.y.val := by
  have low (number : Nat) : number &&& 15 = number % 16 := Nat.and_two_pow_sub_one_eq_mod number 4
  simp only [UInt16.toNat_shiftRight, UInt16.toNat_and, Nat.shiftRight_and_distrib]
  exact ⟨low (opcode.toNat >>> 8), low (opcode.toNat >>> 4)⟩

theorem execute?_eq (opcode : Opcode) :
    machine.execute? opcode = some (machine.execute opcode) := by
  obtain ⟨x, y⟩ := operand_number opcode
  simp only [execute?, x, y, register?_val, Option.bind_eq_bind, Option.bind_some, execute]
  cases Instruction.decode? opcode with
  | none => rfl
  | some instruction =>
      cases raised : instruction.fault? machine with
      | some fault =>
          simp only [raised]
          rfl
      | none =>
          simp only [raised]
          exact machine.advance.perform?_eq raised

theorem step?_eq : machine.step? = some machine.step := by
  unfold step? step
  split
  · split
    · rename_i inside
      have high : machine.pc.toNat < Memory.size := by omega
      have low : machine.pc.toNat + 1 < Memory.size := by omega
      simp only [byte?_of_lt machine high, byte?_of_lt machine low, Option.bind_eq_bind,
        Option.bind_some]
      exact machine.execute?_eq (machine.memory.word machine.pc.toNat)
    · rfl
  · rfl

theorem runSteps?_eq (count : Nat) : machine.runSteps? count = some (machine.runSteps count) := by
  induction count generalizing machine with
  | zero => rfl
  | succ count inductionHypothesis =>
      rw [runSteps?, runSteps]
      split
      · rw [step?_eq, Option.bind_eq_bind, Option.bind_some]
        exact inductionHypothesis machine.step
      · rfl

theorem runFrame?_eq (speed : Int) : machine.runFrame? speed = some (machine.runFrame speed) := by
  rw [runFrame?, runSteps?_eq, Option.bind_eq_bind, Option.bind_some]
  rfl

/-- A wait register that is small enough names a register. -/
theorem keyDown?_eq (small : machine.waitRegister.val ≤ 15) (key : UInt8) :
    machine.keyDown? key = some (machine.keyDown key) := by
  have named : machine.waitRegister.val < 16 := Nat.lt_succ_of_le small
  unfold keyDown? keyDown
  split
  · rw [hold?_eq, Option.bind_eq_bind, Option.bind_some]
    cases mode : machine.mode with
    | running => rfl
    | awaitingKey =>
        dsimp only
        rw [assign?_of_lt _ key named]
        rfl
  · rfl

theorem keyUp?_eq (key : UInt8) : machine.keyUp? key = some (machine.keyUp key) :=
  machine.hold?_eq key false

theorem waitRegister_execute (small : machine.waitRegister.val ≤ 15) (opcode : Opcode) :
    (machine.execute opcode).waitRegister.val ≤ 15 := by
  cases judged : machine.verdict opcode with
  | error fault =>
      rw [execute_of_error judged]
      exact small
  | ok instruction =>
      rw [execute_of_ok judged]
      exact waitRegister_perform instruction small

theorem waitRegister_step (small : machine.waitRegister.val ≤ 15) :
    machine.step.waitRegister.val ≤ 15 := by
  unfold step
  split
  · split
    · exact machine.waitRegister_execute small _
    · exact small
  · exact small

/-- The wait register is only ever assigned the number of a register. -/
theorem waitRegister_act (small : machine.waitRegister.val ≤ 15) (action : Action) :
    (machine.act action).waitRegister.val ≤ 15 := by
  cases action with
  | step => exact machine.waitRegister_step small
  | execute opcode => exact machine.waitRegister_execute small opcode
  | keyDown key =>
      rw [act, machine.keyDown_eq key]
      exact small
  | keyUp key => exact small
  | frame speed =>
      exact @runFrame_keeps (fun next => next.waitRegister.val ≤ 15) waitRegister_step
        (fun _ small => small) machine speed small

theorem act?_eq (small : machine.waitRegister.val ≤ 15) (action : Action) :
    machine.act? action = some (machine.act action) := by
  cases action with
  | step => exact machine.step?_eq
  | execute opcode => exact machine.execute?_eq opcode
  | keyDown key => exact machine.keyDown?_eq small key
  | keyUp key => exact machine.keyUp?_eq key
  | frame speed => exact machine.runFrame?_eq speed

end Operations

end Machine

/-- Every action makes all of its accesses inside the arrays, from any machine whose wait register
names a register, and so does every run of actions. -/
theorem accesses_inside_arrays (machine : Machine) (small : machine.waitRegister.val ≤ 15) :
    (∀ action, machine.act? action = some (machine.act action) ∧
        (machine.act action).waitRegister.val ≤ 15) ∧
      ∀ actions : List Action,
        actions.foldlM Machine.act? machine = some (actions.foldl Machine.act machine) ∧
          (actions.foldl Machine.act machine).waitRegister.val ≤ 15 := by
  constructor
  · exact fun action => ⟨machine.act?_eq small action, machine.waitRegister_act small action⟩
  · intro actions
    induction actions generalizing machine with
    | nil => exact ⟨rfl, small⟩
    | cons action rest inductionHypothesis =>
        rw [List.foldlM_cons, machine.act?_eq small action]
        exact inductionHypothesis (machine.act action) (machine.waitRegister_act small action)

/-- All registers are stored up to the last byte of the memory, and the last key goes to the last
register. -/
theorem accesses_inside_arrays_at_their_ends :
    let machine := { Machine.fresh (MersenneTwister.seeded 0) with
      index := 0xFF0, mode := .awaitingKey, waitRegister := 15 }
    let actions := [Action.execute 0xFF55, .keyDown 15, .frame 3]
    actions.foldlM Machine.act? machine = some (actions.foldl Machine.act machine) ∧
      (machine.execute 0xFF55).fault = none := by
  intro machine actions
  have small : machine.waitRegister.val ≤ 15 := by decide
  exact ⟨((accesses_inside_arrays machine small).2 actions).1, by decide +kernel⟩

/-- A wait register beyond the last register would be written outside the array. -/
example :
    ({ Machine.fresh (MersenneTwister.seeded 0) with
      mode := .awaitingKey, waitRegister := 16 }).keyDown? 0 = none := by
  rfl

end Chip8
