import Chip8.Proofs.HexWriting
import Chip8.Proofs.Numerals

/-!
This file holds the writing of whole numbers in the three bases. A written number is in the format
of the numbers that are read, and it denotes what was written.
-/

namespace Chip8.Text.Numeral

open Rom.HexText (digitValue)

instance (base : Nat) (byte : UInt8) : Decidable (DigitOf base byte) :=
  inferInstanceAs (Decidable (_ ∧ _))

theorem digitOf_lowerDigit {base value : Nat} (small : base ≤ 16) (below : value < base) :
    DigitOf base (lowerDigit value) ∧ digitValue (lowerDigit value) = value := by
  have bound : value < 16 := Nat.lt_of_lt_of_le below small
  obtain ⟨member, same⟩ := Rom.HexText.DigitOf.read (.inl rfl) bound
  exact ⟨⟨member, same.symm ▸ below⟩, same⟩

theorem lowerDigit_ne_zero : ∀ value < 16, value ≠ 0 → lowerDigit value ≠ 0x30 := by
  decide

theorem number_append (base : Nat) (digits : ByteString) (last : UInt8) :
    number base (digits ++ [last]) = base * number base digits + digitValue last := by
  simp only [number, List.foldl_append, List.foldl_cons, List.foldl_nil]

/-- The remainder of a number is its last digit. -/
def digitsIn (base value : Nat) : ByteString :=
  if 1 < base ∧ base ≤ value then digitsIn base (value / base) ++ [lowerDigit (value % base)]
  else [lowerDigit value]
termination_by value
decreasing_by exact Nat.div_lt_self (by omega) (by omega)

section Digits

variable {base : Nat} (proper : 1 < base) (small : base ≤ 16) (value : Nat)

include proper small

theorem digitOf_digitsIn : ∀ byte ∈ digitsIn base value, DigitOf base byte := by
  fun_induction digitsIn base value with
  | case1 value large inductionHypothesis =>
      have last := (digitOf_lowerDigit small (Nat.mod_lt value (by omega))).1
      exact List.forall_mem_append.mpr
        ⟨inductionHypothesis, List.forall_mem_singleton.mpr last⟩
  | case2 value short =>
      exact List.forall_mem_singleton.mpr (digitOf_lowerDigit small (by omega)).1

/-- A written number is read back. -/
theorem number_digitsIn : number base (digitsIn base value) = value := by
  fun_induction digitsIn base value with
  | case1 value large inductionHypothesis =>
      have last := (digitOf_lowerDigit small (Nat.mod_lt value (by omega))).2
      rw [number_append, inductionHypothesis, last]
      exact Nat.div_add_mod value base
  | case2 value short =>
      simpa [number] using (digitOf_lowerDigit small (show value < base by omega)).2

/-- Only zero is written with a leading zero. -/
theorem digitsIn_eq_cons (positive : 0 < value) :
    ∃ first rest, digitsIn base value = first :: rest ∧ first ≠ 0x30 := by
  fun_induction digitsIn base value with
  | case1 value large inductionHypothesis =>
      obtain ⟨first, rest, front, leading⟩ :=
        inductionHypothesis (Nat.div_pos large.2 (by omega))
      exact ⟨first, rest ++ [lowerDigit (value % base)], by rw [front, List.cons_append], leading⟩
  | case2 value short =>
      exact ⟨_, [], rfl, lowerDigit_ne_zero value (by omega) (by omega)⟩

end Digits

theorem digitsIn_ne_nil (base value : Nat) : digitsIn base value ≠ [] := by
  rw [digitsIn]
  split <;> simp

/-- The program writes its own numbers in base ten. -/
theorem digitsIn_ten (value : Nat) : digitsIn 10 value = decimal value := by
  fun_induction decimal value with
  | case1 value small =>
      rw [digitsIn, if_neg (by omega)]
  | case2 value large inductionHypothesis =>
      rw [digitsIn, if_pos (by omega), inductionHypothesis]

/-- A number is written in one of three bases. -/
inductive Base
  | octal
  | decimal
  | hexadecimal
deriving DecidableEq

namespace Base

def radix : Base → Nat
  | octal => 8
  | decimal => 10
  | hexadecimal => 16

/-- The mark in front of the digits tells the base. -/
def mark : Base → ByteString
  | octal => ascii "0"
  | decimal => []
  | hexadecimal => ascii "0x"

def magnitude (base : Base) (value : Nat) : ByteString :=
  base.mark ++ digitsIn base.radix value

/-- A negative number starts with a minus sign. -/
def write (base : Base) : Int → ByteString
  | .ofNat value => base.magnitude value
  | .negSucc value => ascii "-" ++ base.magnitude (value + 1)

/-- A decimal zero is the octal numeral without further digits. -/
theorem magnitude_written (base : Base) (value : Nat) :
    Magnitude (base.magnitude value) value := by
  have each (base : Nat) (proper : 1 < base) (small : base ≤ 16) :
      (∀ byte ∈ digitsIn base value, DigitOf base byte) ∧
        number base (digitsIn base value) = value :=
    ⟨digitOf_digitsIn proper small value, number_digitsIn proper small value⟩
  cases base with
  | octal =>
      obtain ⟨digits, same⟩ := each 8 (by decide) (by decide)
      have written := Magnitude.octal digits
      rwa [same] at written
  | decimal =>
      rcases Nat.eq_zero_or_pos value with rfl | positive
      · have zero : decimal.magnitude 0 = ascii "0" ++ [] := by
          rw [magnitude, radix, digitsIn, if_neg (by decide)]
          rfl
        rw [zero]
        exact .octal (by simp)
      · obtain ⟨digits, same⟩ := each 10 (by decide) (by decide)
        obtain ⟨first, rest, front, nonzero⟩ :=
          digitsIn_eq_cons (show 1 < 10 by decide) (by decide) value positive
        have leading : ¬ ascii "0" <+: digitsIn 10 value := by
          rw [front, show ascii "0" = [0x30] from rfl, List.cons_prefix_cons]
          exact fun zero => nonzero zero.1.symm
        have written := Magnitude.decimal (digitsIn_ne_nil 10 value) leading digits
        rwa [same] at written
  | hexadecimal =>
      obtain ⟨digits, same⟩ := each 16 (by decide) (by decide)
      have written := Magnitude.hexadecimal (.inl rfl) (digitsIn_ne_nil 16 value) digits
      rwa [same] at written

/-- A written number is in the format, and it denotes what was written. -/
theorem write_denotes (base : Base) (value : Int) : Denotes (base.write value) value := by
  refine ⟨[], base.write value, rfl, by simp, ?_⟩
  cases value with
  | ofNat value => exact .plain (base.magnitude_written value)
  | negSucc value => exact .negative (base.magnitude_written (value + 1))

end Base

end Chip8.Text.Numeral
