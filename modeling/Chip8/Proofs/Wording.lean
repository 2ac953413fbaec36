import Chip8.Report

/-!
This file holds the wording of the printed texts. The letters are listed without the printers of the
program, and the printers are shown to print these letters.
-/

namespace Chip8

open Text

namespace Wording

/-- A letter is printed as one byte, which is its code. -/
def printed (letters : List Char) : ByteString :=
  letters.map fun letter => UInt8.ofNat letter.toNat

/-- A quoted text stands for its letters. -/
def quoted (text : String) : List Char :=
  text.toList

section Numbers

/-- A number in base ten has no leading zero. -/
def decimal (number : Nat) : List Char :=
  Nat.toDigits 10 number

/-- A hexadecimal number is filled up with zeros to its width. -/
def hex (width number : Nat) : List Char :=
  List.leftpad width '0' (Nat.toDigits 16 number)

/-- A short hexadecimal number has capital letters and no leading zero. -/
def capitalHex (number : Nat) : List Char :=
  (Nat.toDigits 16 number).map Char.toUpper

end Numbers

section Letters

def edge : List Char :=
  quoted "+" ++ List.replicate 64 '-' ++ quoted "+\n"

/-- Every byte of the picture but zero is light. -/
def pictureRow (display : Display) (row : Nat) : List Char :=
  quoted "|" ++
    ((List.range 64).map fun column =>
      if display.pixels.toList.getD (64 * row + column) 0 = 0 then ' ' else '#') ++
    quoted "|\n"

def picture (display : Display) : List Char :=
  edge ++ (List.range 32).flatMap (pictureRow display) ++ edge

def mode : Mode → List Char
  | .running => quoted "RUN"
  | .awaitingKey => quoted "KEY"

def state (machine : Machine) : List Char :=
  quoted "PC=" ++ hex 4 machine.pc.toNat ++
  quoted "  I=" ++ hex 4 machine.index.toNat ++
  quoted "  DT=" ++ hex 2 machine.delay.toNat ++
  quoted "  ST=" ++ hex 2 machine.sound.toNat ++
  quoted "  depth=" ++ decimal machine.stack.length ++
  quoted "  mode=" ++ mode machine.mode ++ quoted "\n"

/-- A line ends with its eighth register. -/
def register (machine : Machine) (target : Register) : List Char :=
  quoted "V" ++ capitalHex target.val ++ quoted "=" ++ hex 2 (machine.registers.get target).toNat ++
    (if target.val = 7 ∨ target.val = 15 then quoted "\n" else quoted "  ")

def registers (machine : Machine) : List Char :=
  (List.finRange 16).flatMap (register machine)

def counts (frames tones : Nat) : List Char :=
  quoted "frames=" ++ decimal frames ++ quoted "  tone frames=" ++ decimal tones ++ quoted "\n"

/-- Only a machine that still runs is said to wait. -/
def wait (machine : Machine) : List Char :=
  if machine.halted = false ∧ machine.mode = .awaitingKey then
    quoted "waiting for key into V" ++ capitalHex machine.waitRegister.val ++ quoted "\n"
  else []

/-- The report shows one machine, with the number of its frames and of the tones among them. -/
def report (machine : Machine) (frames tones : Nat) : List Char :=
  picture machine.display ++ state machine ++ registers machine ++ counts frames tones ++
    wait machine

def condition : Option Fault → List Char
  | none => quoted "none"
  | some .unknownOpcode => quoted "unknown opcode"
  | some .stackUnderflow => quoted "stack underflow"
  | some .stackOverflow => quoted "stack overflow"
  | some .memoryOutOfRange => quoted "memory out of range"

/-- A halt is worded by its fault, its opcode and its address. -/
def halt (casing : Char → Char) (machine : Machine) : List Char :=
  quoted "[chip8] halted: " ++ condition machine.fault ++
    quoted " (opcode " ++ (hex 4 machine.faultOpcode.toNat).map casing ++
    quoted " at " ++ (hex 4 machine.faultAddress.toNat).map casing ++ quoted ")\n"

end Letters

theorem ascii_eq (text : String) : ascii text = printed (quoted text) := rfl

theorem printed_append (first second : List Char) :
    printed (first ++ second) = printed first ++ printed second :=
  List.map_append

theorem printed_flatMap {Place : Type} (places : List Place) (letters : Place → List Char) :
    printed (places.flatMap letters) = places.flatMap fun place => printed (letters place) :=
  List.map_flatMap

section Digits

/-- Digits are spelled in small or in capital letters. -/
def Spells (spell : Nat → UInt8) (casing : Char → Char) : Prop :=
  ∀ value < 16, spell value = UInt8.ofNat (casing (Nat.digitChar value)).toNat

theorem lowerDigit_spells : Spells lowerDigit id := by
  unfold Spells
  decide

theorem upperDigit_spells : Spells upperDigit Char.toUpper := by
  unfold Spells
  decide

theorem decimal_eq (number : Nat) : Text.decimal number = printed (decimal number) := by
  fun_induction Text.decimal number with
  | case1 number small =>
      rw [decimal, Nat.toDigits_of_lt_base small, lowerDigit_spells number (by omega)]
      rfl
  | case2 number large inductionHypothesis =>
      rw [decimal, Nat.toDigits_eq_if (by decide), if_neg large, printed_append,
        inductionHypothesis, lowerDigit_spells (number % 10) (by omega)]
      rfl

theorem capitalHex_eq {number : Nat} (small : number < 16) :
    [upperDigit number] = printed (capitalHex number) := by
  rw [capitalHex, Nat.toDigits_of_lt_base small, upperDigit_spells number small]
  rfl

theorem hex_one {number : Nat} (small : number < 16) : hex 1 number = [Nat.digitChar number] := by
  rw [hex, Nat.toDigits_of_lt_base small]
  rfl

/-- The last digit is split off, also when the others are only zeros. -/
theorem hex_succ {width : Nat} (positive : 0 < width) (number : Nat) :
    hex (width + 1) number = hex width (number / 16) ++ [Nat.digitChar (number % 16)] := by
  by_cases small : number < 16
  · obtain ⟨others, rfl⟩ := Nat.exists_eq_add_of_lt positive
    simp [hex, List.leftpad, Nat.toDigits_of_lt_base small, Nat.div_eq_of_lt small,
      Nat.mod_eq_of_lt small, List.replicate_succ']
  · rw [hex, Nat.toDigits_eq_if (by decide), if_neg small]
    simp [hex, List.leftpad, Nat.add_sub_add_right]

/-- Each byte of a word has two of its digits. -/
theorem hex_four (number : Nat) : hex 4 number = hex 2 (number / 256) ++ hex 2 (number % 256) := by
  have third : number % 256 / 16 = number / 16 % 16 := by omega
  have fourth : number % 256 % 16 = number % 16 := by omega
  have upper : number / 16 / 16 = number / 256 := by omega
  rw [hex_succ (by decide), hex_succ (by decide), upper, hex_succ (by decide) (number % 256),
    hex_one (by omega), third, fourth]
  simp

variable {spell : Nat → UInt8} {casing : Char → Char} (spells : Spells spell casing)

include spells

theorem hexByte_eq (byte : UInt8) :
    hexByte spell byte = printed ((hex 2 byte.toNat).map casing) := by
  have bound := byte.toNat_lt
  rw [hex_succ (by decide), hex_one (by omega), hexByte, spells _ (by omega), spells _ (by omega)]
  rfl

theorem hexWord_eq (word : UInt16) :
    hexWord spell word = printed ((hex 4 word.toNat).map casing) := by
  have bound := word.toNat_lt
  have high : (word >>> 8).toUInt8.toNat = word.toNat / 256 := by
    simp only [UInt16.toNat_toUInt8, UInt16.toNat_shiftRight, UInt16.reduceToNat, Nat.reduceMod,
      Nat.shiftRight_eq_div_pow, Nat.reducePow]
    omega
  have low : word.toUInt8.toNat = word.toNat % 256 := by simp
  rw [hexWord, hexByte_eq spells, hexByte_eq spells, high, low, ← printed_append, ← List.map_append,
    ← hex_four]

theorem haltLine_eq (machine : Machine) :
    Report.haltLine spell machine = printed (halt casing machine) := by
  have named : Fault.name machine.fault = printed (condition machine.fault) := by
    cases machine.fault with
    | none => rfl
    | some fault => cases fault <;> rfl
  simp only [Report.haltLine, halt, ascii_eq, named, hexWord_eq spells, printed_append]

end Digits

section Report

variable (machine : Machine)

theorem pictureRow_eq (display : Display) (row : Nat) :
    Report.pictureRow display row = printed (pictureRow display row) := by
  have cell (column : Nat) :
      (if display.lit column row then 0x23 else 0x20 : UInt8) =
        UInt8.ofNat (if display.pixels.toList.getD (64 * row + column) 0 = 0 then ' '
          else '#').toNat := by
    have stored := display.lit_iff_stored column row
    split <;> split <;> simp_all
  simp only [Report.pictureRow, pictureRow, ascii_eq, printed_append, cell]
  simp only [printed, List.map_map]
  rfl

theorem pictureText_eq (display : Display) :
    Report.pictureText display = printed (picture display) := by
  have edges : Report.border = printed edge := by decide
  simp only [Report.pictureText, picture, printed_append, printed_flatMap, edges,
    ← pictureRow_eq]
  rfl

theorem stateLine_eq : Report.stateLine machine = printed (state machine) := by
  have modes : Report.modeText machine.mode = printed (mode machine.mode) := by
    cases machine.mode <;> rfl
  simp only [Report.stateLine, state, ascii_eq, modes, hexWord_eq lowerDigit_spells,
    hexByte_eq lowerDigit_spells, decimal_eq, printed_append, List.map_id]

theorem registerLines_eq : Report.registerLines machine = printed (registers machine) := by
  have each (target : Register) :
      Report.registerText machine target = printed (register machine target) := by
    have lineEnd : target.val % 8 = 7 ↔ target.val = 7 ∨ target.val = 15 := by omega
    simp only [Report.registerText, register, ascii_eq, printed_append, capitalHex_eq target.isLt,
      hexByte_eq lowerDigit_spells, List.map_id, lineEnd, Machine.register]
    split <;> rfl
  simp only [Report.registerLines, registers, printed_flatMap, ← each]

/-- A register number needs only one digit. -/
theorem waitLine_eq (numbered : machine.waitRegister.val < 16) :
    Report.waitLine machine = printed (wait machine) := by
  unfold Report.waitLine wait
  split
  · rename_i unhalted waiting
    rw [if_pos ⟨unhalted, waiting⟩]
    simp only [ascii_eq, capitalHex_eq numbered, printed_append]
  · rename_i other
    rw [if_neg fun both => other both.1 both.2]
    rfl

end Report

end Wording

end Chip8
