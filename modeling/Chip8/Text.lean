/-!
This file holds texts as byte lists, with the few spellings that the program needs: decimal
numbers, fixed-width hexadecimal numbers, and the blanks that separate words.
-/

namespace Chip8

/-- A text is a list of bytes, so that a path or a file need not follow any encoding. -/
abbrev ByteString := List UInt8

namespace Text

/-- A quoted text stands for the codes of its characters. -/
def ascii (quoted : String) : ByteString :=
  quoted.toList.map fun letter => letter.toNat.toUInt8

/-- Six bytes are blank: the space and the codes from tab to carriage return. -/
def isBlank (byte : UInt8) : Bool :=
  byte == 0x20 || (0x09 ≤ byte && byte ≤ 0x0D)

/-- Digits above nine are letters, counted from the given code. -/
def digit (letters : UInt8) (value : Nat) : UInt8 :=
  if value < 10 then 0x30 + value.toUInt8 else letters + (value - 10).toUInt8

def lowerDigit (value : Nat) : UInt8 := digit 0x61 value

def upperDigit (value : Nat) : UInt8 := digit 0x41 value

/-- A byte has two digits. -/
def hexByte (spell : Nat → UInt8) (byte : UInt8) : ByteString :=
  [spell (byte.toNat / 16), spell (byte.toNat % 16)]

/-- A word has four digits. -/
def hexWord (spell : Nat → UInt8) (word : UInt16) : ByteString :=
  hexByte spell (word >>> 8).toUInt8 ++ hexByte spell word.toUInt8

/-- A natural number has no leading zero. -/
def decimal (value : Nat) : ByteString :=
  if value < 10 then [lowerDigit value]
  else decimal (value / 10) ++ [lowerDigit (value % 10)]
termination_by value

/-- Every separator ends one piece, and the last piece may be empty. -/
def split (separates : UInt8 → Bool) : ByteString → List ByteString
  | [] => [[]]
  | byte :: rest =>
      if separates byte then [] :: split separates rest
      else
        match split separates rest with
        | [] => [[byte]]
        | piece :: others => (byte :: piece) :: others

/-- Lines end at a line feed. -/
def lines (text : ByteString) : List ByteString :=
  split (· == 0x0A) text

/-- Words are the longest pieces without a blank. -/
def words (text : ByteString) : List ByteString :=
  (split isBlank text).filter (· ≠ [])

theorem split_ne_nil (separates : UInt8 → Bool) (text : ByteString) :
    split separates text ≠ [] := by
  cases text with
  | nil => simp [split]
  | cons byte rest =>
      unfold split
      split
      · simp
      · split <;> simp

end Text

end Chip8
