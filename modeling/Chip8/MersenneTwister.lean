/-!
This file holds the random number generator. Its sequence of words obeys one recurrence of
length 624, and each output is a word of that sequence with its bits mixed.
-/

namespace Chip8

/-- The state is a window of 624 consecutive words, kept in a ring whose oldest word is marked. -/
structure MersenneTwister where
  ring : Vector UInt32 624
  oldest : Fin 624
deriving DecidableEq

namespace MersenneTwister

/-- A seed determines the first window word by word. -/
def seedWord (seed : UInt32) : Nat → UInt32
  | 0 => seed
  | place + 1 =>
      let previous := seedWord seed place
      (1812433253 : UInt32) * (previous ^^^ (previous >>> 30)) + UInt32.ofNat (place + 1)

def seeded (seed : UInt32) : MersenneTwister :=
  ⟨Vector.ofFn fun place => seedWord seed place.val, 0⟩

/-- The high bit of one word and the low bits of its successor form the twisted word. -/
def twist (upper lower : UInt32) : UInt32 :=
  let joined := (upper &&& 0x80000000) ||| (lower &&& 0x7FFFFFFF)
  (joined >>> 1) ^^^ (if joined &&& 1 = 0 then 0 else 0x9908B0DF)

/-- The recurrence gives a word from the words 624, 623 and 227 places before it. -/
def successor (oldest second distant : UInt32) : UInt32 :=
  distant ^^^ twist oldest second

/-- The output mixes the bits of one word. -/
def temper (word : UInt32) : UInt32 :=
  let first := word ^^^ (word >>> 11)
  let second := first ^^^ ((first <<< 7) &&& 0x9D2C5680)
  let third := second ^^^ ((second <<< 15) &&& 0xEFC60000)
  third ^^^ (third >>> 18)

/-- A draw replaces the oldest word by the next word of the sequence. -/
def next (generator : MersenneTwister) : UInt32 × MersenneTwister :=
  let word := successor generator.ring[generator.oldest]
    generator.ring[generator.oldest + 1] generator.ring[generator.oldest + 397]
  (temper word, ⟨generator.ring.set generator.oldest word, generator.oldest + 1⟩)

/-- A random byte is the high byte of one output. -/
def nextByte (generator : MersenneTwister) : UInt8 × MersenneTwister :=
  let (output, advanced) := generator.next
  ((output >>> 24).toUInt8, advanced)

end MersenneTwister

end Chip8
