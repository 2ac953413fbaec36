import Chip8.Proofs.Footprint
import Mathlib.Data.Nat.Bitwise

/-!
This file holds assignments to the places of a machine. Assignments are made one after another, and
numbers are cut down to bytes and words when they are assigned.
-/

namespace Chip8

/-- A number is stored in a byte modulo 256. -/
theorem byteOfInt {number : Int} {byte : UInt8} (same : number % 256 = byte.toNat) :
    UInt8.ofInt number = byte := by
  apply UInt8.toNat_inj.mp
  have bound := byte.toNat_lt
  simp only [UInt8.ofInt, UInt8.toNat_ofNat']
  omega

/-- A number is stored in a word modulo 65536. -/
theorem wordOfInt {number : Int} {word : UInt16} (same : number % 65536 = word.toNat) :
    UInt16.ofInt number = word := by
  apply UInt16.toNat_inj.mp
  have bound := word.toNat_lt
  simp only [UInt16.ofInt, UInt16.toNat_ofNat']
  omega

@[simp] theorem byteOfInt_natCast (number : Nat) : UInt8.ofInt number = UInt8.ofNat number :=
  byteOfInt (by simp)

@[simp] theorem wordOfInt_natCast (number : Nat) : UInt16.ofInt number = UInt16.ofNat number :=
  wordOfInt (by simp)

section Bytes

variable (first second : UInt8)

theorem byteOfInt_sub :
    UInt8.ofInt ((first.toNat : Int) - second.toNat) = first - second := by
  apply byteOfInt
  rw [UInt8.toNat_sub]
  have bound := second.toNat_lt
  omega

theorem byteOfInt_lowBit : UInt8.ofInt ((first.toNat : Int) % 2) = first &&& 1 := by
  apply byteOfInt
  have low : first.toNat &&& 1 = first.toNat % 2 := Nat.and_two_pow_sub_one_eq_mod first.toNat 1
  simp only [UInt8.toNat_and, UInt8.toNat_one, low]
  omega

theorem byteOfInt_half : UInt8.ofInt ((first.toNat : Int) / 2) = first >>> 1 := by
  apply byteOfInt
  have bound := first.toNat_lt
  simp only [UInt8.toNat_shiftRight, UInt8.toNat_one, Nat.shiftRight_eq_div_pow, Nat.reduceMod,
    Nat.reducePow]
  omega

theorem byteOfInt_highBit :
    UInt8.ofInt (if (128 : Int) ≤ first.toNat then 128 else 0) = first &&& 0x80 := by
  have high : first.toNat &&& 128 = if 128 ≤ first.toNat then 128 else 0 := by
    have bound := first.toNat_lt
    rw [show (128 : Nat) = 2 ^ 7 by decide, Nat.and_two_pow, Nat.testBit_eq_decide_div_mod_eq]
    split <;> simp <;> omega
  apply byteOfInt
  simp only [UInt8.toNat_and, UInt8.reduceToNat, high]
  split <;> split <;> omega

theorem byteOfInt_double : UInt8.ofInt (2 * (first.toNat : Int)) = first <<< 1 := by
  apply byteOfInt
  simp only [UInt8.toNat_shiftLeft, UInt8.toNat_one, Nat.shiftLeft_eq, Nat.reduceMod,
    Nat.reducePow]
  omega

theorem byteOfInt_hundreds : UInt8.ofInt ((first.toNat : Int) / 100) = first / 100 := by
  apply byteOfInt
  have bound := first.toNat_lt
  simp only [UInt8.toNat_div, UInt8.reduceToNat]
  omega

theorem byteOfInt_tens : UInt8.ofInt ((first.toNat : Int) / 10 % 10) = first / 10 % 10 := by
  apply byteOfInt
  have bound := first.toNat_lt
  simp only [UInt8.toNat_mod, UInt8.toNat_div, UInt8.reduceToNat]
  omega

theorem byteOfInt_ones : UInt8.ofInt ((first.toNat : Int) % 10) = first % 10 := by
  apply byteOfInt
  simp only [UInt8.toNat_mod, UInt8.reduceToNat]
  omega

theorem decide_number_eq : decide ((first.toNat : Int) = second.toNat) = (first == second) := by
  have same : (first.toNat : Int) = second.toNat ↔ first = second := by
    rw [Int.natCast_inj, UInt8.toNat_inj]
  rw [beq_eq_decide]
  exact decide_eq_decide.mpr same

theorem byteOfNat_random (output : UInt32) :
    UInt8.ofNat (output.toNat / 2 ^ 24) = (output >>> 24).toUInt8 := by
  apply UInt8.toNat_inj.mp
  simp [Nat.shiftRight_eq_div_pow]

end Bytes

/-- The value is computed from the machine as it stands when the assignment is made. -/
structure Assignment where
  place : Place
  value : Machine → place.Content

/-- Registers enter the table as numbers. -/
def Machine.number (machine : Machine) (target : Register) : Int :=
  (machine.register target).toNat

namespace Assignment

/-- A register keeps a number modulo 256. -/
def register (target : Register) (value : Machine → Int) : Assignment :=
  ⟨.register target, fun machine => UInt8.ofInt (value machine)⟩

def flag (condition : Machine → Bool) : Assignment :=
  register flagRegister fun machine => if condition machine then 1 else 0

def memory (address : Nat) (value : Machine → Int) : Assignment :=
  ⟨.memory address, fun machine => UInt8.ofInt (value machine)⟩

/-- Bits are combined in natural numbers. -/
def combine (operation : Nat → Nat → Nat) (x y : Register) : Assignment :=
  register x fun machine => operation (machine.register x).toNat (machine.register y).toNat

/-- The index and the program counter keep a number modulo 65536. -/
def index (value : Machine → Int) : Assignment :=
  ⟨.index, fun machine => UInt16.ofInt (value machine)⟩

def pc (value : Machine → Int) : Assignment :=
  ⟨.pc, fun machine => UInt16.ofInt (value machine)⟩

def run (machine : Machine) (assignment : Assignment) : Machine :=
  machine.put assignment.place (assignment.value machine)

/-- A later assignment sees the earlier ones. -/
def runAll (machine : Machine) (assignments : List Assignment) : Machine :=
  assignments.foldl run machine

/-- Every row first remembers the address of its opcode and moves past it. -/
def advance : List Assignment :=
  [⟨.faultAddress, fun machine => machine.pc⟩, pc fun machine => machine.pc.toNat + 2]

/-- Each register has an offset of its own in a block of memory. -/
def store (address : Nat) (target : Register) : Assignment :=
  memory (address + target.val) fun machine => machine.number target

def load (address : Nat) (target : Register) : Assignment :=
  register target fun machine => (machine.memory.read (address + target.val)).toNat

def skip (condition : Bool) : List Assignment :=
  if condition then [pc fun machine => machine.pc.toNat + 2] else []

/-- An assignment is made when its value is read back at its place, and when every other place is
read as before. -/
structure Makes (assignment : Assignment) (before after : Machine) : Prop where
  stored : after.content assignment.place = assignment.value before
  kept : ∀ place, place ≠ assignment.place → after.content place = before.content place

/-- Assignments are made one after another. -/
inductive MakesAll : List Assignment → Machine → Machine → Prop
  | nil (machine : Machine) : MakesAll [] machine machine
  | cons {assignment : Assignment} {rest : List Assignment} {before between after : Machine}
      (head : assignment.Makes before between) (tail : MakesAll rest between after) :
      MakesAll (assignment :: rest) before after

variable (machine : Machine)

/-- No two machines are left by one assignment. -/
theorem Makes.unique {assignment : Assignment} {before first second : Machine}
    (one : assignment.Makes before first) (other : assignment.Makes before second) :
    first = second := by
  apply Machine.eq_of_content
  intro place
  by_cases assigned : place = assignment.place
  · subst assigned
    exact one.stored.trans other.stored.symm
  · exact (one.kept place assigned).trans (other.kept place assigned).symm

theorem MakesAll.unique {assignments : List Assignment} {before first second : Machine}
    (one : MakesAll assignments before first) (other : MakesAll assignments before second) :
    first = second := by
  induction one with
  | nil machine =>
      cases other
      rfl
  | cons head _ inductionHypothesis =>
      cases other with
      | cons otherHead otherTail =>
          obtain rfl := head.unique otherHead
          exact inductionHypothesis otherTail

theorem makes_run (assignment : Assignment) (inside : assignment.place.Inside) :
    assignment.Makes machine (run machine assignment) where
  stored := machine.content_put_self assignment.place _ inside
  kept _ apart := machine.content_put_of_ne assignment.place _ apart

theorem makesAll_runAll (assignments : List Assignment)
    (inside : ∀ assignment ∈ assignments, assignment.place.Inside) :
    MakesAll assignments machine (runAll machine assignments) := by
  induction assignments generalizing machine with
  | nil => exact .nil machine
  | cons assignment rest inductionHypothesis =>
      obtain ⟨here, later⟩ := List.forall_mem_cons.mp inside
      exact .cons (makes_run machine assignment here) (inductionHypothesis _ later)

@[simp] theorem runAll_nil : runAll machine [] = machine := rfl

@[simp] theorem runAll_cons (assignment : Assignment) (rest : List Assignment) :
    runAll machine (assignment :: rest) = runAll (run machine assignment) rest := rfl

theorem runAll_append (first second : List Assignment) :
    runAll machine (first ++ second) = runAll (runAll machine first) second :=
  List.foldl_append

@[simp] theorem run_register (target : Register) (value : Machine → Int) :
    run machine (register target value) =
      machine.setRegister target (UInt8.ofInt (value machine)) := rfl

@[simp] theorem run_flag (condition : Machine → Bool) :
    run machine (flag condition) = machine.setFlag (condition machine) := by
  simp only [flag, run_register, Machine.setFlag]
  split <;> rfl

@[simp] theorem run_memory (address : Nat) (value : Machine → Int) :
    run machine (memory address value) =
      { machine with memory := machine.memory.write address (UInt8.ofInt (value machine)) } := rfl

@[simp] theorem run_index (value : Machine → Int) :
    run machine (index value) = { machine with index := UInt16.ofInt (value machine) } := rfl

@[simp] theorem run_pc (value : Machine → Int) :
    run machine (pc value) = { machine with pc := UInt16.ofInt (value machine) } := rfl

@[simp] theorem run_mk (place : Place) (value : Machine → place.Content) :
    run machine ⟨place, value⟩ = machine.put place (value machine) := rfl

theorem runAll_advance : runAll machine advance = machine.advance := by
  have two : UInt16.ofInt 2 = 2 := rfl
  simp [advance, Machine.put, Machine.advance, two]

theorem runAll_skip (condition : Bool) :
    runAll machine (skip condition) = machine.skipIf condition := by
  have two : UInt16.ofInt 2 = 2 := rfl
  cases condition <;> simp [skip, Machine.skipIf, two]

/-- An assignment changes no place but its own. -/
theorem content_runAll (assignments : List Assignment) {place : Place}
    (outside : place ∉ assignments.map Assignment.place) :
    (runAll machine assignments).content place = machine.content place := by
  induction assignments generalizing machine with
  | nil => rfl
  | cons assignment rest inductionHypothesis =>
      rw [List.map_cons, List.mem_cons, not_or] at outside
      rw [runAll_cons, inductionHypothesis _ outside.2]
      exact machine.content_put_of_ne assignment.place _ outside.1

/-- An assignment to a place of its own is made as if it were the only one, when no assignment
changes its value. -/
theorem content_runAll_of_mem {assignments : List Assignment} {assignment : Assignment}
    (listed : assignment ∈ assignments)
    (apart : assignments.Pairwise fun first second => first.place ≠ second.place)
    (stable : ∀ other ∈ assignments, ∀ current,
      assignment.value (run current other) = assignment.value current)
    (kept : ∀ current, (run current assignment).content assignment.place =
      assignment.value current) :
    (runAll machine assignments).content assignment.place = assignment.value machine := by
  induction assignments generalizing machine with
  | nil => exact absurd listed List.not_mem_nil
  | cons head rest inductionHypothesis =>
      obtain ⟨headApart, restApart⟩ := List.pairwise_cons.mp apart
      rw [runAll_cons]
      rcases List.mem_cons.mp listed with rfl | later
      · have outside : assignment.place ∉ rest.map Assignment.place := by
          intro member
          obtain ⟨other, among, same⟩ := List.mem_map.mp member
          exact headApart other among same.symm
        rw [content_runAll _ rest outside, kept]
      · rw [inductionHypothesis _ later restApart
          fun other among => stable other (List.mem_cons_of_mem head among)]
        exact stable head List.mem_cons_self machine

section Blocks

variable (last : Register)

theorem nodup_registersUpTo : (registersUpTo last).Nodup :=
  (List.nodup_finRange 16).filter _

theorem runAll_storeDecimal (x : Register) :
    runAll machine
        [memory machine.index.toNat fun machine => machine.number x / 100,
          memory (machine.index.toNat + 1) fun machine => machine.number x / 10 % 10,
          memory (machine.index.toNat + 2) fun machine => machine.number x % 10] =
      machine.storeDecimal x := by
  simp [Machine.number, Machine.register, byteOfInt_hundreds, byteOfInt_tens, byteOfInt_ones,
    Machine.storeDecimal, Memory.writeAll]

theorem mem_places_registersUpTo {assignment : Register → Assignment} {place : Place} :
    place ∈ ((registersUpTo last).map assignment).map Assignment.place ↔
      ∃ target ≤ last, place = (assignment target).place := by
  simp [mem_registersUpTo, eq_comm]

/-- Assignments for the registers up to a last one are made independently of each other. -/
theorem content_runAll_registersUpTo {assignment : Register → Assignment}
    (distinct : ∀ first second, (assignment first).place = (assignment second).place →
      first = second)
    (stable : ∀ target other current,
      (assignment target).value (run current (assignment other)) =
        (assignment target).value current)
    {target : Register} (within : target ≤ last)
    (kept : ∀ current, (run current (assignment target)).content (assignment target).place =
      (assignment target).value current) :
    (runAll machine ((registersUpTo last).map assignment)).content (assignment target).place =
      (assignment target).value machine := by
  have listed : assignment target ∈ (registersUpTo last).map assignment :=
    List.mem_map_of_mem (mem_registersUpTo.mpr within)
  refine content_runAll_of_mem machine listed ?_ ?_ kept
  · apply List.pairwise_map.mpr
    refine (nodup_registersUpTo last).imp ?_
    intro first second different same
    exact different (distinct first second same)
  · intro other among current
    obtain ⟨source, _, rfl⟩ := List.mem_map.mp among
    exact stable target source current

theorem content_runAll_store (address : Nat) {target : Register} (within : target ≤ last)
    (inside : address + target.val < Memory.size) :
    (runAll machine ((registersUpTo last).map (store address))).content
      (.memory (address + target.val)) = machine.register target := by
  have distinct (first second : Register)
      (same : (store address first).place = (store address second).place) : first = second := by
    simp only [store, memory, Place.memory.injEq, Nat.add_left_cancel_iff] at same
    exact Fin.ext same
  have kept (current : Machine) : (run current (store address target)).content
      (store address target).place = (store address target).value current :=
    (makes_run current (store address target) inside).stored
  have written := content_runAll_registersUpTo machine last distinct (fun _ _ _ => rfl) within kept
  refine written.trans ?_
  simp [store, memory, Machine.number]

/-- The registers are stored one after another. -/
theorem runAll_storeRegisters (room : machine.index.toNat + (last.val + 1) ≤ Memory.size) :
    runAll machine ((registersUpTo last).map (store machine.index.toNat)) =
      machine.storeRegisters last := by
  have length := machine.length_registers_take last
  apply Machine.eq_of_content
  intro place
  by_cases stored : ∃ target ≤ last, place = .memory (machine.index.toNat + target.val)
  · obtain ⟨target, within, rfl⟩ := stored
    have below : target.val ≤ last.val := within
    rw [content_runAll_store machine last _ within (by omega)]
    symm
    refine (Memory.read_writeAll_inside _ _ _ _ (by omega) (by omega)).trans ?_
    simp [Machine.register]
  · rw [content_runAll _ _ fun member => stored ((mem_places_registersUpTo last).mp member)]
    symm
    apply Machine.content_writeAll
    rw [length]
    intro member
    obtain ⟨offset, inside, rfl⟩ := List.mem_map.mp member
    have below : offset < last.val + 1 := List.mem_range.mp inside
    have bound := last.isLt
    exact stored ⟨⟨offset, by omega⟩, Nat.le_of_lt_succ below, rfl⟩

/-- The registers are loaded one after another. -/
theorem runAll_loadRegisters :
    runAll machine ((registersUpTo last).map (load machine.index.toNat)) =
      machine.loadRegisters last := by
  have distinct (first second : Register)
      (same : (load machine.index.toNat first).place = (load machine.index.toNat second).place) :
      first = second := by
    simpa only [load, register, Place.register.injEq] using same
  have kept (target : Register) (current : Machine) :
      (run current (load machine.index.toNat target)).content
        (load machine.index.toNat target).place = (load machine.index.toNat target).value current :=
    (makes_run current (load machine.index.toNat target) trivial).stored
  apply Machine.eq_of_content
  intro place
  by_cases loaded : ∃ target ≤ last, place = .register target
  · obtain ⟨target, within, rfl⟩ := loaded
    have written := content_runAll_registersUpTo machine last distinct (fun _ _ _ => rfl) within
      (kept target)
    refine written.trans ?_
    symm
    refine (machine.register_loadRegisters last target).trans ?_
    simp [load, register, within]
  · rw [content_runAll _ _ fun member => loaded ((mem_places_registersUpTo last).mp member)]
    symm
    apply Machine.content_loadRegisters
    intro member
    obtain ⟨target, listed, rfl⟩ := List.mem_map.mp member
    exact loaded ⟨target, mem_registersUpTo.mp listed, rfl⟩

end Blocks

end Assignment

end Chip8
