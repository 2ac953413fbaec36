import Chip8.Rom.HexText

/-!
This file holds the reading of a program from a named file, in one of two formats, with the
reasons for which a reading fails.
-/

namespace Chip8

namespace Rom

open Text

/-- A pipe opens, but it has no size and nothing to read. -/
inductive File
  | regular (bytes : List UInt8)
  | pipe
deriving DecidableEq

/-- A name without a file cannot be opened. -/
abbrev Files := ByteString → Option File

/-- A program is stored as it is or as a text. -/
inductive Format
  | binary
  | hexText
deriving DecidableEq

/-- A malformed text delivers the bytes before its problem. -/
inductive ReadError
  | cannotOpen (format : Format)
  | cannotSize
  | empty
  | malformed (delivered : List UInt8) (problem : HexText.Problem)
deriving DecidableEq

namespace ReadError

/-- The report names the file. A malformed text has a line for its problem and a line for the
file. -/
def message (path : ByteString) : ReadError → ByteString
  | .cannotOpen .binary => ascii "[loadbin] cannot open '" ++ path ++ ascii "'\n"
  | .cannotOpen .hexText => ascii "[loadhex] cannot open '" ++ path ++ ascii "'\n"
  | .cannotSize => ascii "[loadbin] cannot size '" ++ path ++ ascii "'\n"
  | .empty => ascii "[loadbin] '" ++ path ++ ascii "' is empty\n"
  | .malformed _ problem =>
      problem.message ++ ascii "[loadhex] failed to parse '" ++ path ++ ascii "'\n"

/-- A file that opens replaces what its reader held before. -/
def delivered? : ReadError → Option (List UInt8)
  | .cannotOpen _ => none
  | .cannotSize => none
  | .empty => some []
  | .malformed delivered _ => some delivered

end ReadError

def readBinary (files : Files) (path : ByteString) : Except ReadError (List UInt8) :=
  match files path with
  | none => .error (.cannotOpen .binary)
  | some .pipe => .error .cannotSize
  | some (.regular []) => .error .empty
  | some (.regular bytes) => .ok bytes

def File.text : File → ByteString
  | .regular bytes => bytes
  | .pipe => []

def readHexText (files : Files) (path : ByteString) : Except ReadError (List UInt8) :=
  match files path with
  | none => .error (.cannotOpen .hexText)
  | some file =>
      match HexText.read file.text with
      | ⟨bytes, none⟩ => .ok bytes
      | ⟨bytes, some problem⟩ => .error (.malformed bytes problem)

def read (files : Files) (path : ByteString) : Format → Except ReadError (List UInt8)
  | .binary => readBinary files path
  | .hexText => readHexText files path

end Rom

end Chip8
