import Chip8.Boot
import Chip8.Proofs.HexFormat
import Chip8.Proofs.Loading

/-!
This file holds what a boot leaves. A file that holds a program of at most 3584 bytes gives a
machine that was just started, whatever happened before. A longer program and a file without a
program leave their own states.
-/

namespace Chip8

namespace Rom

/-- A file holds a program as it is, or as a text that stands for it. -/
inductive Held (files : Files) (path : ByteString) : Format → List UInt8 → Prop
  | binary {program : List UInt8} (opens : files path = some (.regular program))
      (nonempty : program ≠ []) : Held files path .binary program
  | hexText {file : File} {program : List UInt8} (opens : files path = some file)
      (denoted : HexText.Denotes file.text program) : Held files path .hexText program

variable {files : Files} {path : ByteString} {format : Format} {program : List UInt8}

theorem held_iff_read : Held files path format program ↔ read files path format = .ok program := by
  constructor
  · rintro (⟨opens, nonempty⟩ | ⟨opens, denoted⟩)
    · obtain ⟨first, rest, rfl⟩ := List.exists_cons_of_ne_nil nonempty
      simp only [read, readBinary, opens]
    · simp only [read, readHexText, opens, HexText.denotes_iff_read.mp denoted]
  · intro delivered
    cases format with
    | binary =>
        simp only [read, readBinary] at delivered
        split at delivered
        · simp at delivered
        · simp at delivered
        · simp at delivered
        · rename_i bytes nonempty opens
          obtain rfl := Except.ok.inj delivered
          exact .binary opens nonempty
    | hexText =>
        simp only [read, readHexText] at delivered
        split at delivered
        · simp at delivered
        · rename_i file opens
          split at delivered
          · rename_i bytes reading
            obtain rfl := Except.ok.inj delivered
            exact .hexText opens (HexText.denotes_iff_read.mpr reading)
          · simp at delivered

/-- A file holds one program. -/
theorem Held.unique {other : List UInt8} (one : Held files path format program)
    (another : Held files path format other) : program = other :=
  Except.ok.inj ((held_iff_read.mp one).symm.trans (held_iff_read.mp another))

/-- A text holds no more bytes than it has itself. -/
theorem Held.length_lt {bound : Nat} (held : Held files path format program)
    (small : ∀ bytes, files path = some (.regular bytes) → bytes.length < bound)
    (positive : 0 < bound) : program.length < bound := by
  cases held with
  | binary opens nonempty => exact small program opens
  | @hexText file _ opens denoted =>
      have shorter := HexText.read_length_le file.text
      rw [HexText.denotes_iff_read.mp denoted] at shorter
      cases file with
      | regular bytes => exact Nat.lt_of_le_of_lt shorter (small bytes opens)
      | pipe => exact Nat.lt_of_le_of_lt shorter positive

end Rom

/-- The memory of a machine that was just started holds the font and the program. -/
structure Memory.Starting (memory : Memory) (program : List UInt8) : Prop where
  font : ∀ address < 80, font[address]? = some (memory.read address)
  gap : ∀ address, 80 ≤ address → address < 0x200 → memory.read address = 0
  loaded : ∀ offset < program.length, program[offset]? = some (memory.read (0x200 + offset))
  rest : ∀ address, 0x200 + program.length ≤ address → memory.read address = 0

/-- Two memories with one program are the same. -/
theorem Memory.Starting.unique {first second : Memory} {program : List UInt8}
    (one : first.Starting program) (other : second.Starting program) : first = second := by
  apply Memory.ext
  intro address inside
  by_cases low : address < 80
  · exact Option.some.inj ((one.font address low).symm.trans (other.font address low))
  · by_cases below : address < 0x200
    · rw [one.gap address (Nat.le_of_not_lt low) below,
        other.gap address (Nat.le_of_not_lt low) below]
    · obtain ⟨offset, rfl⟩ := Nat.exists_eq_add_of_le (Nat.le_of_not_lt below)
      by_cases short : offset < program.length
      · exact Option.some.inj ((one.loaded offset short).symm.trans (other.loaded offset short))
      · have beyond : 0x200 + program.length ≤ 0x200 + offset := by omega
        rw [one.rest _ beyond, other.rest _ beyond]

namespace Memory

theorem starting_withFont : zeroed.withFont.Starting [] where
  font address inside := by
    have within : 0 + font.length ≤ size := by decide
    have copied := read_writeAll_inside zeroed 0 address font inside within
    rw [withFont, ← Nat.zero_add address, copied, Nat.zero_add]
    exact List.getElem?_eq_getElem inside
  gap address above _ := by
    rw [withFont, read_writeAll_outside zeroed 0 address font (.inr above), read_zeroed]
  loaded _ inside := absurd inside (Nat.not_lt_zero _)
  rest address above := by
    have outside : 0 + font.length ≤ address := Nat.le_trans (by decide) above
    rw [withFont, read_writeAll_outside zeroed 0 address font (.inr outside), read_zeroed]

/-- A program that fits is loaded behind the font. -/
theorem starting_writeAll {program : List UInt8} (fits : program.length ≤ 3584) :
    (zeroed.withFont.writeAll 0x200 program).Starting program where
  font address inside := by
    rw [read_writeAll_outside _ _ _ _ (.inl (by omega))]
    exact starting_withFont.font address inside
  gap address above below := by
    rw [read_writeAll_outside _ _ _ _ (.inl below)]
    exact starting_withFont.gap address above below
  loaded offset inside := by
    rw [read_writeAll_inside _ _ _ _ inside (by simp only [size]; omega)]
    exact List.getElem?_eq_getElem inside
  rest address above := by
    rw [read_writeAll_outside _ _ _ _ (.inr above)]
    exact starting_withFont.rest address (Nat.le_trans (Nat.le_add_right _ _) above)

end Memory

namespace Machine

/-- A machine that was just started remembers nothing. -/
structure Started (machine : Machine) (program : List UInt8) (generator : MersenneTwister) :
    Prop where
  registers : machine.registers = Vector.replicate 16 0
  index : machine.index = 0
  pc : machine.pc = 0x200
  stack : machine.stack = []
  delay : machine.delay = 0
  sound : machine.sound = 0
  memory : machine.memory.Starting program
  display : machine.display = Display.blank
  keypad : machine.keypad = Keypad.released
  mode : machine.mode = .running
  waitRegister : machine.waitRegister = 0
  halted : machine.halted = false
  fault : machine.fault = none
  faultAddress : machine.faultAddress = 0
  faultOpcode : machine.faultOpcode = 0
  generator : machine.generator = generator

/-- The program and the generator determine all of the machine. -/
theorem Started.unique {first second : Machine} {program : List UInt8}
    {generator : MersenneTwister} (one : first.Started program generator)
    (other : second.Started program generator) : first = second := by
  have memory := one.memory.unique other.memory
  cases one
  cases other
  cases first
  cases second
  simp_all

/-- Nothing else depends on the generator. -/
theorem Started.reseeded {machine : Machine} {program : List UInt8} {generator : MersenneTwister}
    (started : machine.Started program generator) (other : MersenneTwister) :
    ({ machine with generator := other }).Started program other :=
  { started with generator := rfl }

/-- Only the memory depends on the program. -/
theorem Started.reloaded {machine : Machine} {program : List UInt8} {generator : MersenneTwister}
    (started : machine.Started [] generator) (fits : program.length ≤ 3584) :
    ({ machine with memory := machine.memory.writeAll 0x200 program }).Started program
      generator := by
  have clear : machine.memory = Memory.zeroed.withFont :=
    started.memory.unique Memory.starting_withFont
  exact { started with memory := clear ▸ Memory.starting_writeAll fits }

/-- The reset keeps the generator, and a seed replaces it. -/
theorem started_restart (machine : Machine) (seed : Option UInt32) :
    (machine.restart seed).Started [] (seed.elim machine.generator MersenneTwister.seeded) := by
  have started : machine.reset.Started [] machine.generator :=
    { registers := rfl, index := rfl, pc := rfl, stack := rfl, delay := rfl, sound := rfl
      memory := Memory.starting_withFont
      display := rfl, keypad := rfl, mode := rfl, waitRegister := rfl, halted := rfl, fault := rfl
      faultAddress := rfl, faultOpcode := rfl, generator := rfl }
  cases seed with
  | none => exact started
  | some value => exact started.reseeded (MersenneTwister.seeded value)

/-- The check of the bound does not wrap around for these lengths. -/
theorem fits_programStart_iff {length : Nat} (small : length < 0x80000000) :
    fits (UInt16.ofNat Memory.programStart) length = true ↔ length ≤ 3584 := by
  have origin : (UInt16.ofNat Memory.programStart).toNat = 512 := by decide
  rw [fits_iff_of_lt (by omega), origin]
  omega

variable {files : Rom.Files} {options : Options} {program : List UInt8}

/-- A boot reads one file. -/
theorem boot_congr {machine : Machine} {others : Rom.Files}
    (same : others options.romPath = files options.romPath) :
    machine.boot others options = machine.boot files options := by
  have delivered : Rom.read others options.romPath options.format =
      Rom.read files options.romPath options.format := by
    cases options.format with
    | binary => simp only [Rom.read, Rom.readBinary, same]
    | hexText => simp only [Rom.read, Rom.readHexText, same]
  simp only [boot, delivered]

section

variable (held : Rom.Held files options.romPath options.format program)
include held

/-- A boot restarts the machine and loads the program. -/
theorem boot_of_short (machine : Machine) (short : program.length ≤ 3584) :
    ∃ booted, machine.boot files options = (booted, none) ∧
      booted.Started program (options.seed.elim machine.generator MersenneTwister.seeded) := by
  have accepted : fits (UInt16.ofNat Memory.programStart) program.length = true :=
    (fits_programStart_iff (by omega)).mpr short
  have restarted := machine.started_restart options.seed
  refine ⟨_, ?_, restarted.reloaded short⟩
  simp only [boot, Rom.held_iff_read.mp held, load?, if_pos accepted]
  rfl

theorem boot_of_oversized (machine : Machine) (small : program.length < 0x80000000)
    (long : 3584 < program.length) :
    machine.boot files options =
      (machine.restart options.seed, some (.tooLarge program.length)) := by
  have refused : ¬ fits (UInt16.ofNat Memory.programStart) program.length = true :=
    fun accepted => Nat.not_le.mpr long ((fits_programStart_iff small).mp accepted)
  simp only [boot, Rom.held_iff_read.mp held, load?, if_neg refused]

end

/-- A file without a program leaves every machine alone, for one and the same reason. -/
theorem boot_of_not_held
    (absent : ¬ ∃ program, Rom.Held files options.romPath options.format program) :
    ∃ cause, ∀ machine : Machine,
      machine.boot files options = (machine, some (.unreadable cause)) := by
  cases delivered : Rom.read files options.romPath options.format with
  | error cause => exact ⟨cause, fun machine => by simp only [boot, delivered]⟩
  | ok program => exact absurd ⟨program, Rom.held_iff_read.mpr delivered⟩ absent

end Machine

/-- A boot is settled by the file and the options. The machine before it shows in the generator
when no seed is given, and in everything when no program is read. -/
structure BootSettled (files : Rom.Files) (options : Options) : Prop where
  alike : ∀ first second : Machine, (first.boot files options).2 = (second.boot files options).2
  succeeds : ∀ machine : Machine, (machine.boot files options).2 = none ↔
    ∃ program, Rom.Held files options.romPath options.format program ∧ program.length ≤ 3584
  started : ∀ (machine : Machine) (program : List UInt8),
    Rom.Held files options.romPath options.format program → program.length ≤ 3584 →
      (machine.boot files options).1.Started program
        (options.seed.elim machine.generator MersenneTwister.seeded)
  identical : options.seed.isSome = true → ∀ first second : Machine,
    (first.boot files options).2 = none → first.boot files options = second.boot files options
  unread : (¬ ∃ program, Rom.Held files options.romPath options.format program) →
    ∀ machine : Machine, (machine.boot files options).1 = machine
  oversized : ∀ (machine : Machine) (program : List UInt8),
    Rom.Held files options.romPath options.format program → 3584 < program.length →
      (machine.boot files options).1.Started []
        (options.seed.elim machine.generator MersenneTwister.seeded)

namespace BootSettled

variable {files : Rom.Files} {options : Options} {program : List UInt8}

theorem of_short (held : Rom.Held files options.romPath options.format program)
    (short : program.length ≤ 3584) : BootSettled files options where
  alike first second := by
    obtain ⟨_, one, _⟩ := Machine.boot_of_short held first short
    obtain ⟨_, other, _⟩ := Machine.boot_of_short held second short
    rw [one, other]
  succeeds machine := by
    obtain ⟨_, done, _⟩ := Machine.boot_of_short held machine short
    rw [done]
    exact ⟨fun _ => ⟨program, held, short⟩, fun _ => rfl⟩
  started machine other otherHeld _ := by
    obtain ⟨_, done, started⟩ := Machine.boot_of_short held machine short
    rw [done, otherHeld.unique held]
    exact started
  identical seeded first second _ := by
    obtain ⟨value, given⟩ := Option.isSome_iff_exists.mp seeded
    obtain ⟨_, one, oneStarted⟩ := Machine.boot_of_short held first short
    obtain ⟨_, other, otherStarted⟩ := Machine.boot_of_short held second short
    rw [given] at oneStarted otherStarted
    rw [one, other, oneStarted.unique otherStarted]
  unread absent := absurd ⟨program, held⟩ absent
  oversized _ other otherHeld long := by
    obtain rfl := otherHeld.unique held
    exact absurd short (Nat.not_le.mpr long)

theorem of_oversized (held : Rom.Held files options.romPath options.format program)
    (small : program.length < 0x80000000) (long : 3584 < program.length) :
    BootSettled files options where
  alike first second := by
    rw [Machine.boot_of_oversized held first small long,
      Machine.boot_of_oversized held second small long]
  succeeds machine := by
    rw [Machine.boot_of_oversized held machine small long]
    refine ⟨nofun, ?_⟩
    rintro ⟨other, otherHeld, short⟩
    obtain rfl := otherHeld.unique held
    exact absurd short (Nat.not_le.mpr long)
  started _ other otherHeld short := by
    obtain rfl := otherHeld.unique held
    exact absurd short (Nat.not_le.mpr long)
  identical _ first _ success := by
    rw [Machine.boot_of_oversized held first small long] at success
    exact nomatch success
  unread absent := absurd ⟨program, held⟩ absent
  oversized machine _ _ _ := by
    rw [Machine.boot_of_oversized held machine small long]
    exact machine.started_restart options.seed

theorem of_not_held
    (absent : ¬ ∃ program, Rom.Held files options.romPath options.format program) :
    BootSettled files options := by
  obtain ⟨cause, same⟩ := Machine.boot_of_not_held absent
  exact
    { alike := fun first second => by rw [same first, same second]
      succeeds := fun machine => by
        rw [same machine]
        exact ⟨nofun, fun ⟨program, held, _⟩ => absurd ⟨program, held⟩ absent⟩
      started := fun _ program held => absurd ⟨program, held⟩ absent
      identical := fun _ first _ success => by
        rw [same first] at success
        exact nomatch success
      unread := fun _ machine => by rw [same machine]
      oversized := fun _ program held => absurd ⟨program, held⟩ absent }

/-- Files below two gigabytes leave no other case. -/
theorem of_small
    (small : ∀ bytes, files options.romPath = some (.regular bytes) → bytes.length < 0x80000000) :
    BootSettled files options := by
  by_cases present : ∃ program, Rom.Held files options.romPath options.format program
  · obtain ⟨program, held⟩ := present
    by_cases short : program.length ≤ 3584
    · exact of_short held short
    · exact of_oversized held (held.length_lt small (by decide)) (Nat.lt_of_not_le short)
  · exact of_not_held present

end BootSettled

end Chip8
