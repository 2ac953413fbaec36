import Chip8.Text

/-!
This file holds the reading of whole numbers. A numeral is decimal, octal after a leading zero,
or hexadecimal after the marker `0x`, with blanks and one sign in front and nothing behind.
-/

namespace Chip8.Text.Numeral

/-- The digits run from zero to `f`, and letters have either case. -/
def digitValue? (byte : UInt8) : Option Nat :=
  if 0x30 ≤ byte ∧ byte ≤ 0x39 then some (byte.toNat - 0x30)
  else if 0x61 ≤ byte ∧ byte ≤ 0x66 then some (byte.toNat - 0x61 + 10)
  else if 0x41 ≤ byte ∧ byte ≤ 0x46 then some (byte.toNat - 0x41 + 10)
  else none

/-- A digit of the base extends the number on the right. -/
def accumulate? (base total : Nat) : ByteString → Option Nat
  | [] => some total
  | byte :: rest =>
      match digitValue? byte with
      | none => none
      | some value => if value < base then accumulate? base (total * base + value) rest else none

/-- A natural number has at least one digit, and every byte is a digit of the base. -/
def natural? (base : Nat) (digits : ByteString) : Option Nat :=
  if digits.isEmpty then none else accumulate? base 0 digits

/-- The first bytes select the base. A zero alone is an octal numeral. -/
def magnitude? : ByteString → Option Nat
  | 0x30 :: 0x78 :: digits => natural? 16 digits
  | 0x30 :: 0x58 :: digits => natural? 16 digits
  | 0x30 :: digits => natural? 8 (0x30 :: digits)
  | digits => natural? 10 digits

/-- One sign may stand before the magnitude. -/
def signed? : ByteString → Option Int
  | 0x2B :: rest => (magnitude? rest).map Int.ofNat
  | 0x2D :: rest => (magnitude? rest).map fun value => -Int.ofNat value
  | text => (magnitude? text).map Int.ofNat

/-- Blanks may stand before the number and not after it. -/
def integer? (text : ByteString) : Option Int :=
  signed? (text.dropWhile isBlank)

/-- A number outside the bounds is refused, whatever its size. -/
def within? (lower upper : Int) (text : ByteString) : Option Int :=
  (integer? text).filter fun value => lower ≤ value && value ≤ upper

theorem digitValue?_lt {byte : UInt8} {value : Nat} (digit : digitValue? byte = some value) :
    value < 16 := by
  unfold digitValue? at digit
  simp only [UInt8.le_iff_toNat_le] at digit
  grind

/-- A number that is read lies within the bounds. -/
theorem within?_bounds {lower upper value : Int} {text : ByteString}
    (read : within? lower upper text = some value) :
    integer? text = some value ∧ lower ≤ value ∧ value ≤ upper := by
  simpa [within?, Option.filter_eq_some_iff] using read

end Chip8.Text.Numeral
