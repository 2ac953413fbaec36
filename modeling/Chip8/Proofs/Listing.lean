import Chip8.Proofs.InstructionTable
import Chip8.Proofs.Refusal
import Mathlib.Tactic.IntervalCases

/-!
This file holds the opcodes that the instruction table lists. An opcode outside the table is refused
as unknown, except that a comparison of two registers is recognised by its first digit alone.
-/

namespace Chip8

/-- The sprites have a row of the table too. -/
def tablePatterns : List Pattern :=
  { first := 0xD } :: instructionTable.map Row.pattern

theorem Pattern.matches_iff (pattern : Pattern) (opcode : Opcode) :
    pattern.Matches opcode ↔
      opcode.digit 3 = pattern.first ∧ (∀ digit ∈ pattern.second, opcode.digit 2 = digit) ∧
        (∀ digit ∈ pattern.third, opcode.digit 1 = digit) ∧
          ∀ digit ∈ pattern.fourth, opcode.digit 0 = digit := by
  constructor
  · intro found
    exact ⟨found.first, found.second, found.third, found.fourth⟩
  · rintro ⟨first, second, third, fourth⟩
    exact ⟨first, second, third, fourth⟩

namespace Opcode

def Listed (opcode : Opcode) : Prop :=
  ∃ pattern ∈ tablePatterns, pattern.Matches opcode

instance (opcode : Opcode) : Decidable opcode.Listed :=
  inferInstanceAs (Decidable (∃ pattern ∈ tablePatterns, pattern.Matches opcode))

/-- Two families compare two registers. -/
def Compares (opcode : Opcode) : Prop :=
  opcode.digit 3 = 0x5 ∨ opcode.digit 3 = 0x9

/-- The last digits of the register operations. -/
def arithmeticDigits : List Nat :=
  [0x0, 0x1, 0x2, 0x3, 0x4, 0x5, 0x6, 0x7, 0xE]

/-- The low bytes of the key tests. -/
def keypadBytes : List UInt8 :=
  [0x9E, 0xA1]

/-- The low bytes of the timer, index and memory operations. -/
def deviceBytes : List UInt8 :=
  [0x07, 0x0A, 0x15, 0x18, 0x1E, 0x29, 0x33, 0x55, 0x65]

/-- Five families have rows for some of their opcodes only. -/
theorem listed_iff (opcode : Opcode) :
    opcode.Listed ↔
      opcode.digit 3 ∉ [0x5, 0x8, 0x9, 0xE, 0xF] ∨ opcode.Compares ∧ opcode.digit 0 = 0x0 ∨
        opcode.digit 3 = 0x8 ∧ opcode.digit 0 ∈ arithmeticDigits ∨
        opcode.digit 3 = 0xE ∧ opcode.byte ∈ keypadBytes ∨
        opcode.digit 3 = 0xF ∧ opcode.byte ∈ deviceBytes := by
  have first := opcode.digit_lt 3
  simp only [Listed, tablePatterns, instructionTable, systemRows, jumpRows, skipRows, constantRows,
    arithmeticRows, deviceRows, memoryRows, List.cons_append, List.nil_append, List.map_cons,
    List.map_nil, List.mem_cons, List.not_mem_nil, or_false, exists_eq_or_imp, exists_eq_left,
    Pattern.matches_iff]
  generalize family : opcode.digit 3 = leading at first
  interval_cases leading <;>
    simp [Compares, family, arithmeticDigits, keypadBytes, deviceBytes, byte_eq_iff]

end Opcode

namespace Instruction

variable (opcode : Opcode)

theorem ofArithmetic?_eq_none :
    ofArithmetic? opcode = none ↔ opcode.digit 0 ∉ Opcode.arithmeticDigits := by
  simp only [← opcode.nibble_val, Opcode.arithmeticDigits, List.mem_cons, List.not_mem_nil,
    or_false]
  unfold ofArithmetic?
  split <;> grind

theorem ofKeypad?_eq_none : ofKeypad? opcode = none ↔ opcode.byte ∉ Opcode.keypadBytes := by
  unfold ofKeypad?
  split <;> simp_all [Opcode.keypadBytes]

theorem ofDevice?_eq_none : ofDevice? opcode = none ↔ opcode.byte ∉ Opcode.deviceBytes := by
  unfold ofDevice?
  split <;> simp_all [Opcode.deviceBytes]

/-- Only three families have opcodes that are not decoded. -/
theorem decode?_ne_none_of_plain {opcode : Opcode}
    (plain : opcode.digit 3 ∉ [0x8, 0xE, 0xF]) : decode? opcode ≠ none := by
  rw [← opcode.family_val] at plain
  unfold decode?
  split <;> grind

/-- The comparisons are the only opcodes outside the table that are decoded. -/
theorem decode?_eq_none : decode? opcode = none ↔ ¬ opcode.Listed ∧ ¬ opcode.Compares := by
  rw [opcode.listed_iff]
  by_cases computes : opcode.digit 3 = 0x8
  · have family : opcode.family = 0x8 := Opcode.family_eq computes
    simp only [decode?, family, ofArithmetic?_eq_none]
    simp [computes, Opcode.Compares]
  by_cases tests : opcode.digit 3 = 0xE
  · have family : opcode.family = 0xE := Opcode.family_eq tests
    simp only [decode?, family, ofKeypad?_eq_none]
    simp [tests, Opcode.Compares]
  by_cases serves : opcode.digit 3 = 0xF
  · have family : opcode.family = 0xF := Opcode.family_eq serves
    simp only [decode?, family, ofDevice?_eq_none]
    simp [serves, Opcode.Compares]
  have decoded : decode? opcode ≠ none :=
    decode?_ne_none_of_plain (by simp [computes, tests, serves])
  simp only [decoded, false_iff]
  rintro ⟨unlisted, distinct⟩
  obtain ⟨notFive, notNine⟩ := not_or.mp distinct
  exact unlisted (.inl (by simp [computes, tests, serves, notFive, notNine]))

/-- A comparison is decoded without its last digit, and it never faults. -/
theorem exists_decoded_of_compares {opcode other : Opcode} (compares : opcode.Compares)
    (alike : ∀ place ∈ [1, 2, 3], other.digit place = opcode.digit place) :
    ∃ instruction, decode? opcode = some instruction ∧ decode? other = some instruction ∧
      ∀ machine, instruction.fault? machine = none := by
  have y : other.y = opcode.y :=
    Fin.ext (by rw [other.y_val, opcode.y_val, alike 1 (by decide)])
  have x : other.x = opcode.x :=
    Fin.ext (by rw [other.x_val, opcode.x_val, alike 2 (by decide)])
  have sameFamily := alike 3 (by decide)
  rcases compares with five | nine
  · have family : opcode.family = 0x5 := Opcode.family_eq five
    have otherFamily : other.family = 0x5 := Opcode.family_eq (sameFamily.trans five)
    exact ⟨.skipIfEqual opcode.x opcode.y, by simp only [decode?, family],
      by simp only [decode?, otherFamily, x, y], fun _ => rfl⟩
  · have family : opcode.family = 0x9 := Opcode.family_eq nine
    have otherFamily : other.family = 0x9 := Opcode.family_eq (sameFamily.trans nine)
    exact ⟨.skipUnlessEqual opcode.x opcode.y, by simp only [decode?, family],
      by simp only [decode?, otherFamily, x, y], fun _ => rfl⟩

end Instruction

namespace Machine

/-- A fault is raised when it halts a machine that has not halted. -/
def RaisesFault (machine : Machine) (opcode : Opcode) (fault : Fault) : Prop :=
  let after := { machine with halted := false }.execute opcode
  after.halted = true ∧ after.fault = some fault

section Opcodes

variable {machine : Machine} {opcode : Opcode}

theorem raisesFault_iff {fault : Fault} :
    machine.RaisesFault opcode fault ↔ machine.Refuses opcode fault := by
  have judges : { machine with halted := false }.verdict opcode = machine.verdict opcode :=
    verdict_congr rfl rfl opcode
  rw [refuses_iff, ← judges, RaisesFault]
  cases judged : { machine with halted := false }.verdict opcode with
  | error other =>
      rw [execute_of_error judged]
      simp [halt]
  | ok instruction =>
      rw [execute_of_ok judged, halted_perform]
      simp [advance]

theorem raisesFault_unknown_iff :
    machine.RaisesFault opcode .unknownOpcode ↔ ¬ opcode.Listed ∧ ¬ opcode.Compares := by
  rw [raisesFault_iff, refuses_iff, verdict_eq_unknown, Instruction.decode?_eq_none]

theorem execute_of_compares {other : Opcode} (compares : opcode.Compares)
    (alike : ∀ place ∈ [1, 2, 3], other.digit place = opcode.digit place) :
    machine.execute other = machine.execute opcode := by
  obtain ⟨instruction, decoded, otherDecoded, plain⟩ :=
    Instruction.exists_decoded_of_compares compares alike
  rw [execute_of_ok (verdict_eq_ok.mpr ⟨decoded, plain machine⟩),
    execute_of_ok (verdict_eq_ok.mpr ⟨otherDecoded, plain machine⟩)]

theorem execute_of_ignored (system : opcode.digit 3 = 0x0) (notClear : opcode ≠ 0x00E0)
    (notReturn : opcode ≠ 0x00EE) : machine.execute opcode = machine.advance := by
  have family : opcode.family = 0x0 := Opcode.family_eq system
  have decoded : Instruction.decode? opcode = some .ignore := by
    simp only [Instruction.decode?, family, Instruction.ofSystem, if_neg notClear,
      if_neg notReturn]
  exact execute_of_ok (verdict_eq_ok.mpr ⟨decoded, rfl⟩)

end Opcodes

end Machine

/-- An opcode is refused as unknown when the table does not list it, unless it is a comparison: a
comparison with a last digit other than zero is not listed, but it is executed as the listed one. A
refusal leaves everything else alone, and an opcode `0nnn` with no row of its own does nothing. -/
theorem unknown_iff_unlisted_and_no_comparison (machine : Machine) (opcode : Opcode) :
    (machine.RaisesFault opcode .unknownOpcode ↔ ¬ opcode.Listed ∧ ¬ opcode.Compares) ∧
      (¬ opcode.Listed → ¬ opcode.Compares →
        machine.execute opcode =
          { machine with
            pc := machine.pc + 2, faultAddress := machine.pc, halted := true,
            fault := some .unknownOpcode, faultOpcode := opcode }) ∧
      (opcode.Compares →
        ∀ other : Opcode, (∀ place ∈ [1, 2, 3], other.digit place = opcode.digit place) →
          machine.execute other = machine.execute opcode) ∧
      (opcode.digit 3 = 0x0 → opcode ≠ 0x00E0 → opcode ≠ 0x00EE →
        machine.execute opcode =
          { machine with pc := machine.pc + 2, faultAddress := machine.pc }) := by
  refine ⟨Machine.raisesFault_unknown_iff, ?_, ?_, ?_⟩
  · intro unlisted distinct
    have raised : machine.RaisesFault opcode .unknownOpcode :=
      Machine.raisesFault_unknown_iff.mpr ⟨unlisted, distinct⟩
    exact Machine.execute_of_refuses (Machine.raisesFault_iff.mp raised)
  · intro compares other alike
    exact Machine.execute_of_compares compares alike
  · intro system notClear notReturn
    exact Machine.execute_of_ignored system notClear notReturn

/-- A register operation without a row is refused, and an opcode of the first family is not. -/
theorem unknown_among_register_operations :
    let machine := Machine.fresh (MersenneTwister.seeded 0)
    machine.RaisesFault 0x8128 .unknownOpcode ∧ ¬ machine.RaisesFault 0x5120 .unknownOpcode ∧
      (machine.execute 0x8128).faultOpcode = 0x8128 ∧
        machine.execute 0x5127 = machine.execute 0x5120 ∧ (machine.execute 0x0123).pc = 0x202 := by
  intro machine
  obtain ⟨unknown, refused, _, _⟩ := unknown_iff_unlisted_and_no_comparison machine 0x8128
  obtain ⟨known, _, compared, _⟩ := unknown_iff_unlisted_and_no_comparison machine 0x5120
  obtain ⟨_, _, _, ignored⟩ := unknown_iff_unlisted_and_no_comparison machine 0x0123
  have unlisted : ¬ Opcode.Listed 0x8128 := by decide +kernel
  have distinct : ¬ Opcode.Compares 0x8128 := by unfold Opcode.Compares; decide
  refine ⟨unknown.mpr ⟨unlisted, distinct⟩, fun raised => ?_, ?_, ?_, ?_⟩
  · exact (known.mp raised).1 (by decide +kernel)
  · rw [refused unlisted distinct]
  · exact compared (.inl (by decide)) 0x5127 (by decide)
  · rw [ignored (by decide) (by decide) (by decide)]
    rfl

/-- A comparison with a last digit is not listed, and it is executed all the same. -/
theorem unlisted_comparison_executed :
    let machine := Machine.fresh (MersenneTwister.seeded 0)
    ¬ Opcode.Listed 0x5011 ∧ ¬ machine.RaisesFault 0x5011 .unknownOpcode ∧
      (machine.execute 0x5011).halted = false ∧ (machine.execute 0x5011).pc = 0x204 := by
  have unlisted : ¬ Opcode.Listed 0x5011 := by decide +kernel
  refine ⟨unlisted, ?_, by decide +kernel, by decide +kernel⟩
  rw [Machine.raisesFault_unknown_iff]
  exact fun both => both.2 (.inl (by decide))

end Chip8
