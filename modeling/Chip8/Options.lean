import Chip8.Rom
import Chip8.Text.Numeral

/-!
This file holds the command line: its settings, the reading of an argument list from left to
right, and the messages for a list that is refused.
-/

namespace Chip8

open Text

/-- A seed is absent unless it is asked for. -/
structure Options where
  romPath : ByteString := []
  format : Rom.Format := .binary
  speed : Int := 10
  scale : Int := 10
  seed : Option UInt32 := none
  frames : Int := 600
deriving DecidableEq

/-- Four options take a number. -/
inductive Setting
  | speed
  | scale
  | seed
  | frames
deriving DecidableEq

namespace Setting

def flag : Setting → ByteString
  | .speed => ascii "--speed"
  | .scale => ascii "--scale"
  | .seed => ascii "--seed"
  | .frames => ascii "--frames"

def lower : Setting → Int
  | .seed => 0
  | _ => 1

def upper : Setting → Int
  | .speed => 10000
  | .scale => 64
  | .seed => 4294967295
  | .frames => 100000000

def store (setting : Setting) (value : Int) (options : Options) : Options :=
  match setting with
  | .speed => { options with speed := value }
  | .scale => { options with scale := value }
  | .seed => { options with seed := some (UInt32.ofNat value.toNat) }
  | .frames => { options with frames := value }

def ofFlag? (argument : ByteString) : Option Setting :=
  [speed, scale, seed, frames].find? fun setting => setting.flag == argument

/-- A value is a whole numeral inside the bounds of its setting. -/
def read? (setting : Setting) (value : ByteString) : Option Int :=
  Numeral.within? setting.lower setting.upper value

theorem flag_of_ofFlag? {argument : ByteString} {setting : Setting}
    (found : ofFlag? argument = some setting) : setting.flag = argument := by
  simpa using List.find?_some found

end Setting

/-- The flag of the textual format takes no value. -/
def hexFlag : ByteString := ascii "--hex"

/-- An argument list is refused at its first offending item. -/
inductive ArgumentError
  | missingValue (flag : ByteString)
  | badValue (flag value : ByteString)
  | unknownOption (argument : ByteString)
  | unexpected (argument : ByteString)
  | missingPath
deriving DecidableEq

def ArgumentError.message : ArgumentError → ByteString
  | .missingValue flag => flag ++ ascii " needs a value"
  | .badValue flag value => ascii "bad value '" ++ value ++ ascii "' for " ++ flag
  | .unknownOption argument => ascii "unknown option '" ++ argument ++ ascii "'"
  | .unexpected argument => ascii "unexpected argument '" ++ argument ++ ascii "'"
  | .missingPath => ascii "missing ROM path"

namespace Options

/-- The items before an offending item keep their effect. An empty path counts as no path. -/
def parse (options : Options) : List ByteString → Options × Option ArgumentError
  | [] => (options, if options.romPath.isEmpty then some .missingPath else none)
  | argument :: rest =>
      if argument == hexFlag then
        parse { options with format := .hexText } rest
      else
        match Setting.ofFlag? argument with
        | some setting =>
            match rest with
            | [] => (options, some (.missingValue argument))
            | value :: others =>
                match setting.read? value with
                | none => (options, some (.badValue argument value))
                | some number => parse (setting.store number options) others
        | none =>
            if argument.head? == some 0x2D then (options, some (.unknownOption argument))
            else if options.romPath.isEmpty then parse { options with romPath := argument } rest
            else (options, some (.unexpected argument))

end Options

/-- The help text lists every option. -/
def usage : ByteString :=
  ascii "usage: chip8vm ROM [options]\n" ++
  ascii "  --hex         ROM is a text file of hex bytes\n" ++
  ascii "  --speed N     instructions per frame (default 10)\n" ++
  ascii "  --scale N     window pixels per display pixel (default 10)\n" ++
  ascii "  --seed N      random seed for RND\n" ++
  ascii "  --frames N    frames to run headless (default 600)\n"

/-- A refused command line is answered with the reason and the help text. -/
def ArgumentError.report (error : ArgumentError) : ByteString :=
  ascii "[chip8] " ++ error.message ++ ascii "\n" ++ usage

end Chip8
