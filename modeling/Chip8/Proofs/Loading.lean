import Chip8.Proofs.Footprint

/-!
This file holds the loading of programs. The bound is checked modulo two to the power of thirty-two,
which is the true bound for every program whose end has a number of thirty-two bits.
-/

namespace Chip8

namespace Machine

/-- The length is cut down to thirty-two bits, and so is the sum. -/
theorem fits_iff (origin : UInt16) (length : Nat) :
    fits origin length = true ↔ (origin.toNat + length) % 0x100000000 ≤ 4096 := by
  rw [fits, decide_eq_true_iff, UInt32.le_iff_toNat_le, UInt32.toNat_add, UInt32.toNat_ofNat',
    UInt16.toNat_toUInt32]
  change (origin.toNat + length % 0x100000000) % 0x100000000 ≤ 4096 ↔ _
  rw [Nat.add_mod_mod]

/-- The sum does not wrap around below two to the power of thirty-two. -/
theorem fits_iff_of_lt {origin : UInt16} {length : Nat}
    (narrow : origin.toNat + length < 0x100000000) :
    fits origin length = true ↔ origin.toNat + length ≤ 4096 := by
  rw [fits_iff, Nat.mod_eq_of_lt narrow]

section Programs

variable (machine : Machine) (program : List UInt8) (origin : UInt16)

theorem isSome_load?_iff :
    (machine.load? program origin).isSome = true ↔ fits origin program.length = true := by
  unfold load?
  split <;> simp_all

/-- The machine behind the attempt to load a program. -/
def loading : Machine :=
  (machine.load? program origin).getD machine

theorem loading_of_refused (refused : (machine.load? program origin).isSome = false) :
    machine.loading program origin = machine := by
  have absent : machine.load? program origin = none := by simpa using refused
  rw [loading, absent, Option.getD_none]

variable {program origin}

theorem loading_of_fits (room : origin.toNat + program.length ≤ 4096) :
    machine.loading program origin =
      { machine with memory := machine.memory.writeAll origin.toNat program } := by
  have accepted : fits origin program.length = true :=
    (fits_iff_of_lt (by omega)).mpr room
  rw [loading, load?, if_pos accepted]
  rfl

end Programs

end Machine

/-- A program is accepted when its end is at most 4096 modulo two to the power of thirty-two, which
is the true bound while the end is a number of thirty-two bits. A program that fits is copied and
nothing else changes, and a refused one changes nothing. -/
theorem program_accepted_iff_end_fits_in_word (machine : Machine) (program : List UInt8)
    (origin : UInt16) :
    let accepted := (machine.load? program origin).isSome
    let after := machine.loading program origin
    (accepted = true ↔ (origin.toNat + program.length) % 0x100000000 ≤ 4096) ∧
      (origin.toNat + program.length < 0x100000000 →
        (accepted = true ↔ origin.toNat + program.length ≤ 4096)) ∧
      (origin.toNat + program.length ≤ 4096 →
        (∀ offset (inside : offset < program.length),
          after.memory.read (origin.toNat + offset) = program[offset]) ∧
        ∀ place, place ∉ memoryBlock origin.toNat program.length →
          after.content place = machine.content place) ∧
      (accepted = false → after = machine) := by
  intro accepted after
  have judged : accepted = true ↔ Machine.fits origin program.length = true :=
    machine.isSome_load?_iff program origin
  refine ⟨judged.trans (Machine.fits_iff origin program.length), ?_, ?_, ?_⟩
  · intro narrow
    exact judged.trans (Machine.fits_iff_of_lt narrow)
  · intro room
    have copied : after = _ := machine.loading_of_fits room
    rw [copied]
    refine ⟨fun offset inside => ?_, fun place outside => ?_⟩
    · exact machine.memory.read_writeAll_inside origin.toNat offset program inside room
    · exact machine.content_writeAll origin.toNat program outside
  · intro refused
    exact machine.loading_of_refused program origin refused

/-- Three bytes fit at the end of the memory, and four are refused. -/
theorem program_accepted_at_end :
    let machine := Machine.fresh (MersenneTwister.seeded 0)
    (machine.load? [1, 2, 3] 0xFFD).isSome = true ∧
      (machine.loading [1, 2, 3] 0xFFD).memory.read 0xFFF = 3 ∧
      (machine.loading [1, 2, 3] 0xFFD).content .pc = 0x200 ∧
      (machine.load? [1, 2, 3, 4] 0xFFD).isSome = false ∧
      machine.loading [1, 2, 3, 4] 0xFFD = machine := by
  intro machine
  obtain ⟨_, three, copied, _⟩ := program_accepted_iff_end_fits_in_word machine [1, 2, 3] 0xFFD
  obtain ⟨four, _, _, kept⟩ := program_accepted_iff_end_fits_in_word machine [1, 2, 3, 4] 0xFFD
  obtain ⟨stored, framed⟩ := copied (by decide)
  have refused : (machine.load? [1, 2, 3, 4] 0xFFD).isSome = false :=
    Bool.eq_false_iff.mpr fun accepted => absurd (four.mp accepted) (by decide)
  exact ⟨(three (by decide)).mpr (by decide), stored 2 (by decide), framed .pc (by decide), refused,
    kept refused⟩

/-- The end of a program of two to the power of thirty-two bytes wraps around to its origin. -/
theorem huge_program_accepted :
    let machine := Machine.fresh (MersenneTwister.seeded 0)
    let program := List.replicate 0x100000000 (0 : UInt8)
    (machine.load? program 0).isSome = true ∧
      ¬ (0 : UInt16).toNat + program.length ≤ 4096 := by
  intro machine program
  have length : program.length = 0x100000000 := List.length_replicate
  refine ⟨?_, ?_⟩
  · rw [Machine.isSome_load?_iff, Machine.fits_iff, length]
    decide
  · rw [length]
    decide

end Chip8
