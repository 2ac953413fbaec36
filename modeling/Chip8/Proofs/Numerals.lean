import Chip8.Proofs.HexFormat
import Mathlib.Data.List.TakeWhile

/-!
This file holds the format of a whole number. The format is described by the bytes that a number
may consist of, in one of three bases, and the reading accepts exactly the numbers in this format.
-/

namespace Chip8.Text.Numeral

open Rom.HexText (hexDigits digitValue digitValue?_eq)

/-- The digits of a base are the hexadecimal digits below it. -/
def DigitOf (base : Nat) (byte : UInt8) : Prop :=
  byte ∈ hexDigits ∧ digitValue byte < base

/-- The first digit of a number counts most. -/
def number (base : Nat) (digits : ByteString) : Nat :=
  digits.foldl (fun total byte => base * total + digitValue byte) 0

/-- A magnitude is hexadecimal behind a mark, octal behind a zero, and decimal otherwise. -/
inductive Magnitude : ByteString → Nat → Prop
  | hexadecimal {mark digits : ByteString} (marked : mark = ascii "0x" ∨ mark = ascii "0X")
      (nonempty : digits ≠ []) (each : ∀ byte ∈ digits, DigitOf 16 byte) :
      Magnitude (mark ++ digits) (number 16 digits)
  | octal {digits : ByteString} (each : ∀ byte ∈ digits, DigitOf 8 byte) :
      Magnitude (ascii "0" ++ digits) (number 8 digits)
  | decimal {digits : ByteString} (nonempty : digits ≠ []) (leading : ¬ ascii "0" <+: digits)
      (each : ∀ byte ∈ digits, DigitOf 10 byte) : Magnitude digits (number 10 digits)

/-- One sign may stand in front of a magnitude. -/
inductive Signed : ByteString → Int → Prop
  | plain {text : ByteString} {magnitude : Nat} (written : Magnitude text magnitude) :
      Signed text magnitude
  | positive {text : ByteString} {magnitude : Nat} (written : Magnitude text magnitude) :
      Signed (ascii "+" ++ text) magnitude
  | negative {text : ByteString} {magnitude : Nat} (written : Magnitude text magnitude) :
      Signed (ascii "-" ++ text) (-magnitude)

/-- Blanks may stand in front of a number, and nothing stands behind it. -/
def Denotes (text : ByteString) (value : Int) : Prop :=
  ∃ blanks body, text = blanks ++ body ∧ (∀ byte ∈ blanks, isBlank byte = true) ∧ Signed body value

theorem accumulate?_eq_some_iff {base total value : Nat} {digits : ByteString} :
    accumulate? base total digits = some value ↔
      (∀ byte ∈ digits, DigitOf base byte) ∧
        value = digits.foldl (fun total byte => base * total + digitValue byte) total := by
  induction digits generalizing total with
  | nil => simp [accumulate?, eq_comm]
  | cons byte rest inductionHypothesis =>
      rw [accumulate?, digitValue?_eq, List.forall_mem_cons, List.foldl_cons, DigitOf]
      by_cases listed : byte ∈ hexDigits
      · rw [if_pos listed]
        by_cases small : digitValue byte < base
        · simp only [listed, small, if_true, inductionHypothesis, Nat.mul_comm total base,
            and_self, true_and]
        · simp [small]
      · simp [listed]

theorem natural?_eq_some_iff {base value : Nat} {digits : ByteString} :
    natural? base digits = some value ↔
      digits ≠ [] ∧ (∀ byte ∈ digits, DigitOf base byte) ∧ value = number base digits := by
  cases digits with
  | nil => simp [natural?]
  | cons first rest => simp [natural?, accumulate?_eq_some_iff, number]

/-- The letters of the marks are no octal digits. -/
theorem not_digitOf_eight_mark : ¬ DigitOf 8 0x78 ∧ ¬ DigitOf 8 0x58 := by
  simp only [DigitOf]
  decide

theorem magnitude?_eq_some_iff {text : ByteString} {value : Nat} :
    magnitude? text = some value ↔ Magnitude text value := by
  constructor
  · intro read
    unfold magnitude? at read
    split at read
    · rename_i digits
      obtain ⟨nonempty, each, rfl⟩ := natural?_eq_some_iff.mp read
      exact .hexadecimal (.inl rfl) nonempty each
    · rename_i digits
      obtain ⟨nonempty, each, rfl⟩ := natural?_eq_some_iff.mp read
      exact .hexadecimal (.inr rfl) nonempty each
    · rename_i digits _ _
      obtain ⟨_, each, rfl⟩ := natural?_eq_some_iff.mp read
      exact .octal (List.forall_mem_cons.mp each).2
    · rename_i unmarked
      obtain ⟨nonempty, each, rfl⟩ := natural?_eq_some_iff.mp read
      refine .decimal nonempty ?_ each
      rintro ⟨digits, rfl⟩
      exact unmarked digits rfl
  · rintro (⟨rfl | rfl, nonempty, each⟩ | ⟨each⟩ | ⟨nonempty, leading, each⟩)
    · exact natural?_eq_some_iff.mpr ⟨nonempty, each, rfl⟩
    · exact natural?_eq_some_iff.mpr ⟨nonempty, each, rfl⟩
    · rename_i digits
      have whole : natural? 8 (0x30 :: digits) = some (number 8 digits) :=
        natural?_eq_some_iff.mpr ⟨List.cons_ne_nil _ _,
          List.forall_mem_cons.mpr ⟨by simp only [DigitOf]; decide, each⟩, rfl⟩
      change magnitude? (0x30 :: digits) = some (number 8 digits)
      unfold magnitude?
      split
      · exact absurd (each 0x78 (by simp_all)) not_digitOf_eight_mark.1
      · exact absurd (each 0x58 (by simp_all)) not_digitOf_eight_mark.2
      · simp_all
      · simp_all
    · have whole := natural?_eq_some_iff.mpr ⟨nonempty, each, rfl⟩
      unfold magnitude?
      split
      · exact absurd ⟨_, rfl⟩ leading
      · exact absurd ⟨_, rfl⟩ leading
      · exact absurd ⟨_, rfl⟩ leading
      · exact whole

/-- A magnitude starts with a digit, so that it starts with no sign and with no blank. -/
theorem Magnitude.exists_cons {text : ByteString} {value : Nat} (written : Magnitude text value) :
    ∃ first rest, text = first :: rest ∧ first ∈ hexDigits := by
  cases written with
  | hexadecimal marked _ _ =>
      rcases marked with rfl | rfl
      · exact ⟨_, _, rfl, by decide⟩
      · exact ⟨_, _, rfl, by decide⟩
  | octal _ => exact ⟨_, _, rfl, by decide⟩
  | decimal nonempty _ each =>
      obtain ⟨first, rest, rfl⟩ := List.exists_cons_of_ne_nil nonempty
      exact ⟨first, rest, rfl, (each first List.mem_cons_self).1⟩

theorem hexDigits_unsigned : ∀ byte ∈ hexDigits,
    isBlank byte = false ∧ byte ≠ 0x2B ∧ byte ≠ 0x2D := by
  decide +kernel

theorem signed?_eq_some_iff {text : ByteString} {value : Int} :
    signed? text = some value ↔ Signed text value := by
  constructor
  · intro read
    unfold signed? at read
    split at read
    all_goals
      obtain ⟨magnitude, found, rfl⟩ := Option.map_eq_some_iff.mp read
      have written := magnitude?_eq_some_iff.mp found
    · exact .positive written
    · exact .negative written
    · exact .plain written
  · rintro (written | written | written)
    · obtain ⟨first, rest, rfl, digit⟩ := written.exists_cons
      obtain ⟨_, notPlus, notMinus⟩ := hexDigits_unsigned first digit
      unfold signed?
      split
      · simp_all
      · simp_all
      · rw [magnitude?_eq_some_iff.mpr written]
        rfl
    · rename_i text magnitude
      change (magnitude? text).map Int.ofNat = _
      rw [magnitude?_eq_some_iff.mpr written]
      rfl
    · rename_i text magnitude
      change (magnitude? text).map (fun value => -Int.ofNat value) = _
      rw [magnitude?_eq_some_iff.mpr written]
      rfl

theorem Signed.exists_cons {text : ByteString} {value : Int} (written : Signed text value) :
    ∃ first rest, text = first :: rest ∧ isBlank first = false := by
  cases written with
  | plain written =>
      obtain ⟨first, rest, rfl, digit⟩ := written.exists_cons
      exact ⟨first, rest, rfl, (hexDigits_unsigned first digit).1⟩
  | positive _ => exact ⟨_, _, rfl, by decide⟩
  | negative _ => exact ⟨_, _, rfl, by decide⟩

/-- The reading of whole numbers accepts exactly the texts in the format. -/
theorem integer?_eq_some_iff {text : ByteString} {value : Int} :
    integer? text = some value ↔ Denotes text value := by
  constructor
  · intro read
    exact ⟨text.takeWhile isBlank, text.dropWhile isBlank, List.takeWhile_append_dropWhile.symm,
      fun _ member => List.mem_takeWhile_imp member, signed?_eq_some_iff.mp read⟩
  · rintro ⟨blanks, body, rfl, blank, written⟩
    obtain ⟨first, rest, rfl, visible⟩ := written.exists_cons
    rw [integer?, List.dropWhile_append_of_pos blank, List.dropWhile_cons_of_neg (by simp [visible])]
    exact signed?_eq_some_iff.mpr written

/-- A number is read within bounds exactly when its format is right and its value is. -/
theorem within?_eq_some_iff {lower upper value : Int} {text : ByteString} :
    within? lower upper text = some value ↔ Denotes text value ∧ lower ≤ value ∧ value ≤ upper := by
  rw [within?, Option.filter_eq_some_iff, integer?_eq_some_iff]
  simp

end Chip8.Text.Numeral
