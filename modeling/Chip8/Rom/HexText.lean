import Chip8.Text.Numeral

/-!
This file holds the textual form of a program: hexadecimal bytes and words, separated by blanks,
with comments to the end of the line.
-/

namespace Chip8.Rom.HexText

open Text

/-- A comment starts with `#`, with `;` or with two slashes. -/
def startsComment : ByteString → Bool
  | 0x23 :: _ => true
  | 0x3B :: _ => true
  | 0x2F :: 0x2F :: _ => true
  | _ => false

/-- The code of a line stands before its first comment. -/
def code : ByteString → ByteString
  | [] => []
  | byte :: rest => if startsComment (byte :: rest) then [] else byte :: code rest

/-- A marker is dropped when something follows it. -/
def dropMarker : ByteString → ByteString
  | 0x30 :: 0x78 :: third :: rest => third :: rest
  | 0x30 :: 0x58 :: third :: rest => third :: rest
  | word => word

/-- Commas and underscores are ignored wherever they stand. -/
def clean (word : ByteString) : ByteString :=
  dropMarker (word.filter fun byte => byte != 0x2C && byte != 0x5F)

/-- A token keeps the number of its line, counted from one. -/
structure Token where
  line : Nat
  text : ByteString
deriving DecidableEq

def lineTokens (line : Nat) (text : ByteString) : List Token :=
  (((words (code text)).map clean).filter (· ≠ [])).map fun word => ⟨line, word⟩

def tokens (text : ByteString) : List Token :=
  ((lines text).zipIdx 1).flatMap fun numbered => lineTokens numbered.2 numbered.1

/-- A text is refused at its first bad token, or for having no token. -/
inductive Problem
  | notHex (token : Token)
  | outOfRange (token : Token)
  | noBytes
deriving DecidableEq

def Problem.message : Problem → ByteString
  | .notHex token =>
      ascii "[loadhex] non-hex token '" ++ token.text ++ ascii "' at line " ++
        decimal token.line ++ ascii "\n"
  | .outOfRange token =>
      ascii "[loadhex] byte out of range '" ++ token.text ++ ascii "' at line " ++
        decimal token.line ++ ascii "\n"
  | .noBytes => ascii "[loadhex] no bytes read\n"

/-- One or two digits are a byte, and four digits are two bytes, the high one first. -/
def Token.bytes (token : Token) : Except Problem (List UInt8) :=
  match token.text.mapM Numeral.digitValue? with
  | none => .error (.notHex token)
  | some [low] => .ok [UInt8.ofNat low]
  | some [high, low] => .ok [UInt8.ofNat (16 * high + low)]
  | some [first, second, third, fourth] =>
      .ok [UInt8.ofNat (16 * first + second), UInt8.ofNat (16 * third + fourth)]
  | some _ => .error (.outOfRange token)

/-- A reading holds the bytes before the problem, if there is one. -/
structure Reading where
  bytes : List UInt8
  problem : Option Problem
deriving DecidableEq

def readTokens : List Token → Reading
  | [] => ⟨[], none⟩
  | token :: rest =>
      match token.bytes with
      | .error problem => ⟨[], some problem⟩
      | .ok bytes =>
          let reading := readTokens rest
          ⟨bytes ++ reading.bytes, reading.problem⟩

/-- A text without a token has no bytes to give. -/
def read (text : ByteString) : Reading :=
  match tokens text with
  | [] => ⟨[], some .noBytes⟩
  | token :: rest => readTokens (token :: rest)

/-- A good token stands for one or two bytes. -/
theorem Token.bytes_ne_nil {token : Token} {bytes : List UInt8} (good : token.bytes = .ok bytes) :
    bytes ≠ [] := by
  unfold Token.bytes at good
  repeat' split at good
  all_goals simp_all
  all_goals (subst good; simp)

/-- A text without a problem has at least one byte. -/
theorem read_bytes_ne_nil {text : ByteString} (good : (read text).problem = none) :
    (read text).bytes ≠ [] := by
  unfold read at good ⊢
  cases found : tokens text with
  | nil => simp [found] at good
  | cons token rest =>
      simp only [found, readTokens] at good ⊢
      cases outcome : token.bytes with
      | error problem => simp [outcome] at good
      | ok bytes => simp [Token.bytes_ne_nil outcome]

end Chip8.Rom.HexText
