import Chip8.Proofs.NumeralWriting

/-!
This file holds the scan of a number of 64 bits. A scan reads the longest numeral in front of a text
and leaves the rest behind, and it fails when the number is too large. The reading of numbers agrees
with a scan that must use the whole text.
-/

namespace Chip8.Text.Numeral

open Rom.HexText (digitValue)

/-- A long number has 64 bits, one of them for its sign. -/
def IsLong (value : Int) : Prop :=
  -0x8000000000000000 ≤ value ∧ value < 0x8000000000000000

def longMaximum : Nat := 0x7FFFFFFFFFFFFFFF

/-- The accumulation fails at the first digit that leads above the limit. -/
def accumulateUpTo? (limit base total : Nat) : ByteString → Option Nat
  | [] => some total
  | byte :: rest =>
      let next := base * total + digitValue byte
      if limit < next then none else accumulateUpTo? limit base next rest

/-- The digits end where a byte is no digit of the base. -/
def scanDigits? (limit base : Nat) (text : ByteString) : Option (Nat × ByteString) :=
  let digits := text.takeWhile (DigitOf base ·)
  if digits = [] then none
  else
    (accumulateUpTo? limit base 0 digits).map fun value =>
      (value, text.dropWhile (DigitOf base ·))

/-- A mark counts only in front of a digit. Otherwise its zero is a numeral of its own. -/
def openingBehind (mark : UInt8) (rest : ByteString) : Nat × ByteString :=
  if rest.takeWhile (DigitOf 16 ·) = [] then (8, 0x30 :: mark :: rest) else (16, rest)

/-- The first bytes tell the base and where its digits begin. -/
def opening : ByteString → Nat × ByteString
  | 0x30 :: 0x78 :: rest => openingBehind 0x78 rest
  | 0x30 :: 0x58 :: rest => openingBehind 0x58 rest
  | 0x30 :: rest => (8, 0x30 :: rest)
  | text => (10, text)

def scanMagnitude? (limit : Nat) (text : ByteString) : Option (Nat × ByteString) :=
  scanDigits? limit (opening text).1 (opening text).2

/-- The smallest number lies one farther from zero than the largest. -/
def scan? (text : ByteString) : Option (Int × ByteString) :=
  match text.dropWhile isBlank with
  | 0x2B :: rest =>
      (scanMagnitude? longMaximum rest).map fun found => (Int.ofNat found.1, found.2)
  | 0x2D :: rest =>
      (scanMagnitude? (longMaximum + 1) rest).map fun found => (-Int.ofNat found.1, found.2)
  | rest =>
      (scanMagnitude? longMaximum rest).map fun found => (Int.ofNat found.1, found.2)

/-- A variable receives the number, and it keeps its value when the scan fails, when something is
left behind or when the number is out of bounds. -/
def scanInto (lower upper : Int) (text : ByteString) (kept : Int) : Bool × Int :=
  match scan? text with
  | some (value, []) => if lower ≤ value ∧ value ≤ upper then (true, value) else (false, kept)
  | _ => (false, kept)

/-- Digits never make a number smaller. -/
theorem le_foldl_digits {base : Nat} (positive : 0 < base) (total : Nat) (digits : ByteString) :
    total ≤ digits.foldl (fun total byte => base * total + digitValue byte) total := by
  induction digits generalizing total with
  | nil => exact Nat.le_refl total
  | cons byte rest inductionHypothesis =>
      have first : total ≤ base * total := Nat.le_mul_of_pos_left total positive
      exact (Nat.le_add_right_of_le first).trans (inductionHypothesis _)

theorem accumulateUpTo?_eq_some_iff {limit base total value : Nat} (positive : 0 < base)
    (bounded : total ≤ limit) {digits : ByteString} :
    accumulateUpTo? limit base total digits = some value ↔
      value = digits.foldl (fun total byte => base * total + digitValue byte) total ∧
        value ≤ limit := by
  induction digits generalizing total with
  | nil =>
      simp only [accumulateUpTo?, Option.some.injEq, List.foldl_nil]
      constructor
      · rintro rfl
        exact ⟨rfl, bounded⟩
      · exact fun reached => reached.1.symm
  | cons byte rest inductionHypothesis =>
      rw [accumulateUpTo?, List.foldl_cons]
      split
      · rename_i above
        have larger := le_foldl_digits positive (base * total + digitValue byte) rest
        simp only [reduceCtorEq, false_iff]
        rintro ⟨rfl, small⟩
        omega
      · rename_i below
        exact inductionHypothesis (Nat.le_of_not_lt below)

/-- A scan that leaves nothing behind has found digits only. -/
theorem scanDigits?_eq_some_iff {limit base value : Nat} (positive : 0 < base) {text : ByteString} :
    scanDigits? limit base text = some (value, []) ↔
      natural? base text = some value ∧ value ≤ limit := by
  rw [natural?_eq_some_iff, scanDigits?]
  by_cases each : ∀ byte ∈ text, DigitOf base byte
  · have whole : text.takeWhile (DigitOf base ·) = text := by simpa using each
    have nothing : text.dropWhile (DigitOf base ·) = [] := by simpa using each
    rw [whole, nothing]
    by_cases empty : text = []
    · simp [empty]
    · rw [if_neg empty]
      simp only [Option.map_eq_some_iff, Prod.mk.injEq, and_true, exists_eq_right]
      rw [accumulateUpTo?_eq_some_iff positive (Nat.zero_le limit)]
      constructor
      · exact fun reached => ⟨⟨empty, each, reached.1⟩, reached.2⟩
      · exact fun reached => ⟨reached.1.2.2, reached.2⟩
  · have something : text.dropWhile (DigitOf base ·) ≠ [] := by simpa using each
    simp [each, something]

theorem opening_positive (text : ByteString) : 0 < (opening text).1 := by
  unfold opening
  split
  case h_1 | h_2 =>
    unfold openingBehind
    split
    · exact Nat.succ_pos 7
    · exact Nat.succ_pos 15
  case h_3 => exact Nat.succ_pos 7
  case h_4 => exact Nat.succ_pos 9

/-- A mark without a digit behind it begins no octal numeral either. -/
theorem natural?_openingBehind {mark : UInt8} (foreign : ¬ DigitOf 8 mark) (rest : ByteString) :
    natural? (openingBehind mark rest).1 (openingBehind mark rest).2 =
      natural? 16 rest := by
  unfold openingBehind
  split
  · rename_i digitless
    have octal : natural? 8 (0x30 :: mark :: rest) = none := by
      rw [Option.eq_none_iff_forall_ne_some]
      intro value read
      exact foreign ((natural?_eq_some_iff.mp read).2.1 mark (by simp))
    have hexadecimal : natural? 16 rest = none := by
      rw [Option.eq_none_iff_forall_ne_some]
      intro value read
      obtain ⟨nonempty, each, _⟩ := natural?_eq_some_iff.mp read
      have whole : rest.takeWhile (DigitOf 16 ·) = rest := by simpa using each
      exact nonempty (whole.symm.trans digitless)
    exact octal.trans hexadecimal.symm
  · rfl

theorem natural?_opening (text : ByteString) :
    natural? (opening text).1 (opening text).2 = magnitude? text := by
  unfold magnitude?
  split
  · exact natural?_openingBehind not_digitOf_eight_mark.1 _
  · exact natural?_openingBehind not_digitOf_eight_mark.2 _
  · rw [opening]
    all_goals assumption
  · rw [opening]
    all_goals assumption

theorem scanMagnitude?_eq_some_iff {limit value : Nat} {text : ByteString} :
    scanMagnitude? limit text = some (value, []) ↔ Magnitude text value ∧ value ≤ limit := by
  rw [scanMagnitude?, scanDigits?_eq_some_iff (opening_positive text), natural?_opening,
    magnitude?_eq_some_iff]

theorem map_scanMagnitude?_eq_some_iff {limit : Nat} {sign : Nat → Int}
    (fits : ∀ magnitude, magnitude ≤ limit ↔ IsLong (sign magnitude)) {text : ByteString}
    {value : Int} :
    (scanMagnitude? limit text).map (fun found => (sign found.1, found.2)) = some (value, []) ↔
      (magnitude? text).map sign = some value ∧ IsLong value := by
  simp only [Option.map_eq_some_iff, Prod.exists, Prod.mk.injEq, magnitude?_eq_some_iff]
  constructor
  · rintro ⟨magnitude, _, found, rfl, rfl⟩
    obtain ⟨written, small⟩ := scanMagnitude?_eq_some_iff.mp found
    exact ⟨⟨magnitude, written, rfl⟩, (fits magnitude).mp small⟩
  · rintro ⟨⟨magnitude, written, rfl⟩, long⟩
    have small := (fits magnitude).mpr long
    exact ⟨magnitude, [], scanMagnitude?_eq_some_iff.mpr ⟨written, small⟩, rfl, rfl⟩

theorem isLong_ofNat (magnitude : Nat) : magnitude ≤ longMaximum ↔ IsLong (Int.ofNat magnitude) := by
  simp only [longMaximum, IsLong, Int.ofNat_eq_natCast]
  omega

theorem isLong_neg_ofNat (magnitude : Nat) :
    magnitude ≤ longMaximum + 1 ↔ IsLong (-Int.ofNat magnitude) := by
  simp only [longMaximum, IsLong, Int.ofNat_eq_natCast]
  omega

/-- A scan that leaves nothing behind has found a long number in the format. -/
theorem scan?_eq_some_iff {text : ByteString} {value : Int} :
    scan? text = some (value, []) ↔ Denotes text value ∧ IsLong value := by
  rw [← integer?_eq_some_iff, integer?, scan?]
  generalize text.dropWhile isBlank = body
  split
  · exact map_scanMagnitude?_eq_some_iff isLong_ofNat
  · exact map_scanMagnitude?_eq_some_iff isLong_neg_ofNat
  · rw [signed?]
    · exact map_scanMagnitude?_eq_some_iff isLong_ofNat
    all_goals assumption

theorem Denotes.unique {text : ByteString} {first second : Int} (one : Denotes text first)
    (other : Denotes text second) : first = second :=
  Option.some.inj ((integer?_eq_some_iff.mpr one).symm.trans (integer?_eq_some_iff.mpr other))

theorem Magnitude.zero_not_mem {text : ByteString} {value : Nat} (written : Magnitude text value) :
    0 ∉ text := by
  have digitless {base : Nat} {digits : ByteString} (each : ∀ byte ∈ digits, DigitOf base byte) :
      0 ∉ digits := fun member => absurd (each 0 member).1 (by decide)
  cases written with
  | hexadecimal marked _ each =>
      rcases marked with rfl | rfl <;> simp [ascii, digitless each]
  | octal each => simp [ascii, digitless each]
  | decimal _ _ each => exact digitless each

/-- A byte of zero is neither a blank nor a part of a number. -/
theorem Denotes.zero_not_mem {text : ByteString} {value : Int} (denoted : Denotes text value) :
    0 ∉ text := by
  obtain ⟨blanks, body, rfl, blank, written⟩ := denoted
  intro member
  rcases List.mem_append.mp member with leading | inside
  · exact absurd (blank 0 leading) (by decide)
  · cases written with
    | plain written => exact written.zero_not_mem inside
    | positive written | negative written =>
        rcases List.mem_append.mp inside with sign | digits
        · exact absurd sign (by decide)
        · exact written.zero_not_mem digits

theorem within?_eq_none {lower upper : Int} {text : ByteString}
    (outside : ∀ value, Denotes text value → ¬ (lower ≤ value ∧ value ≤ upper)) :
    within? lower upper text = none := by
  rw [Option.eq_none_iff_forall_ne_some]
  intro value read
  obtain ⟨denoted, bounded⟩ := within?_eq_some_iff.mp read
  exact outside value denoted bounded

section Bounds

variable {lower upper : Int} (lowerLong : IsLong lower) (upperLong : IsLong upper)

include lowerLong upperLong

theorem isLong_of_bounds {value : Int} (bounded : lower ≤ value ∧ value ≤ upper) : IsLong value :=
  ⟨Int.le_trans lowerLong.1 bounded.1, Int.lt_of_le_of_lt bounded.2 upperLong.2⟩

/-- The scan of a whole text gives the number that is read. -/
theorem scanInto_eq (text : ByteString) (kept : Int) :
    scanInto lower upper text kept =
      ((within? lower upper text).isSome, (within? lower upper text).getD kept) := by
  unfold scanInto
  split
  · rename_i value scanned
    have denoted := (scan?_eq_some_iff.mp scanned).1
    split
    · rename_i bounded
      rw [within?_eq_some_iff.mpr ⟨denoted, bounded⟩]
      rfl
    · rename_i unbounded
      rw [within?_eq_none fun other found => denoted.unique found ▸ unbounded]
      rfl
  · rename_i unscanned
    have outside (value : Int) (denoted : Denotes text value) :
        ¬ (lower ≤ value ∧ value ≤ upper) := fun bounded =>
      unscanned value
        (scan?_eq_some_iff.mpr ⟨denoted, isLong_of_bounds lowerLong upperLong bounded⟩)
    rw [within?_eq_none outside]
    rfl

/-- A number is read exactly when the whole text is in the format and the number lies between the
bounds. What is written in a base is read back, and a number that is too long does not wrap. -/
theorem numbers_are_read_exactly :
    (∀ text kept, scanInto lower upper text kept =
        ((within? lower upper text).isSome, (within? lower upper text).getD kept)) ∧
      (∀ text value, within? lower upper text = some value ↔
        Denotes text value ∧ lower ≤ value ∧ value ≤ upper) ∧
      (∀ (base : Base) (value : Int), lower ≤ value → value ≤ upper →
        within? lower upper (base.write value) = some value) ∧
      (∀ text value, Denotes text value → ¬ IsLong value → within? lower upper text = none) ∧
      ∀ text, 0 ∈ text → within? lower upper text = none := by
  refine ⟨scanInto_eq lowerLong upperLong, fun _ _ => within?_eq_some_iff, ?written, ?tooLong,
    ?zero⟩
  case written =>
    intro base value above below
    exact within?_eq_some_iff.mpr ⟨base.write_denotes value, above, below⟩
  case tooLong =>
    intro text value denoted excessive
    apply within?_eq_none
    intro other found bounded
    rw [← denoted.unique found] at bounded
    exact excessive (isLong_of_bounds lowerLong upperLong bounded)
  case zero =>
    intro text member
    exact within?_eq_none fun value denoted => absurd member denoted.zero_not_mem

end Bounds

/-- A mark alone and the digit behind an octal zero are left behind, and a number of 65 bits does not
wrap to zero. -/
theorem numbers_are_read_exactly_near_zero :
    IsLong (-16) ∧ IsLong 64 ∧
      scanInto (-16) 64 (ascii "  -0X1") 5 = (true, -1) ∧
      scanInto (-16) 64 (ascii "0x") 5 = (false, 5) ∧
      scanInto (-16) 64 (ascii "08") 5 = (false, 5) ∧
      within? (-16) 64 (ascii "0x10000000000000000") = none := by
  have lowerLong : IsLong (-16) := by simp [IsLong]
  have upperLong : IsLong 64 := by simp [IsLong]
  obtain ⟨scanned, _, _, tooLong, _⟩ := numbers_are_read_exactly lowerLong upperLong
  refine ⟨lowerLong, upperLong, ?_, ?_, ?_, ?_⟩
  · exact (scanned _ 5).trans (by decide +kernel)
  · exact (scanned _ 5).trans (by decide +kernel)
  · exact (scanned _ 5).trans (by decide +kernel)
  · exact tooLong _ 0x10000000000000000 (integer?_eq_some_iff.mp (by decide +kernel))
      (by simp [IsLong])

end Chip8.Text.Numeral

namespace Chip8

open Text.Numeral (IsLong scanInto scanInto_eq)

/-- The command line scans its numbers, since the bounds of every setting are long. -/
theorem Setting.scanInto_eq_read? (setting : Setting) (text : ByteString) (kept : Int) :
    scanInto setting.lower setting.upper text kept =
      ((setting.read? text).isSome, (setting.read? text).getD kept) := by
  have lowerLong : IsLong setting.lower := by cases setting <;> simp [lower, IsLong]
  have upperLong : IsLong setting.upper := by cases setting <;> simp [upper, IsLong]
  exact scanInto_eq lowerLong upperLong text kept

end Chip8
