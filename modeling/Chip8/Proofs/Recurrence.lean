import Chip8.MersenneTwister

/-!
This file holds the sequence of random words as a recurrence without a state. The ring of a generator
is a window of this sequence, and every draw moves the window on by one word.
-/

namespace Chip8.MersenneTwister

/-- A seed determines the whole sequence, which begins with the words of the seed. -/
def word (seed : UInt32) (place : Nat) : UInt32 :=
  if place < 624 then seedWord seed place
  else successor (word seed (place - 624)) (word seed (place - 623)) (word seed (place - 227))
termination_by place

/-- The outputs are counted from zero. The first one mixes the first word behind the seed's own. -/
def output (seed : UInt32) (number : Nat) : UInt32 :=
  temper (word seed (number + 624))

def advance (generator : MersenneTwister) : MersenneTwister :=
  generator.next.2

/-- The outputs that are skipped are drawn and forgotten. -/
def skip (generator : MersenneTwister) : Nat → MersenneTwister
  | 0 => generator
  | count + 1 => generator.advance.skip count

theorem skip_succ (generator : MersenneTwister) (count : Nat) :
    generator.skip (count + 1) = (generator.skip count).advance := by
  induction count generalizing generator with
  | zero => rfl
  | succ count inductionHypothesis =>
      rw [skip, inductionHypothesis, skip]

theorem word_of_lt (seed : UInt32) {place : Nat} (inside : place < 624) :
    word seed place = seedWord seed place := by
  rw [word, if_pos inside]

theorem word_add (seed : UInt32) (place : Nat) :
    word seed (place + 624) =
      successor (word seed place) (word seed (place + 1)) (word seed (place + 397)) := by
  rw [word, if_neg (by omega), Nat.add_sub_cancel, show place + 624 - 623 = place + 1 by omega,
    show place + 624 - 227 = place + 397 by omega]

/-- The ring holds the words of the sequence from the first one on. -/
structure Window (seed : UInt32) (first : Nat) (generator : MersenneTwister) : Prop where
  oldest : generator.oldest = Fin.ofNat 624 first
  held : ∀ place, first ≤ place → place < first + 624 →
    generator.ring[Fin.ofNat 624 place] = word seed place

theorem window_seeded (seed : UInt32) : Window seed 0 (seeded seed) where
  oldest := rfl
  held place _ inside := by
    have within : place < 624 := by omega
    rw [word_of_lt seed within]
    simp [seeded, Nat.mod_eq_of_lt within]

namespace Window

variable {seed : UInt32} {first : Nat} {generator : MersenneTwister}

/-- The words that enter the recurrence are found by their distance from the oldest one. -/
theorem held_add (window : Window seed first generator) {distance : Nat}
    (within : distance < 624) :
    generator.ring[generator.oldest + Fin.ofNat 624 distance] = word seed (first + distance) := by
  have place : generator.oldest + Fin.ofNat 624 distance = Fin.ofNat 624 (first + distance) := by
    rw [window.oldest]
    apply Fin.ext
    simp [Fin.val_add]
  exact (congrArg (fun cell : Fin 624 => generator.ring[cell]) place).trans
    (window.held (first + distance) (by omega) (by omega))

theorem successor_eq (window : Window seed first generator) :
    successor (generator.ring.get generator.oldest) (generator.ring.get (generator.oldest + 1))
      (generator.ring.get (generator.oldest + 397)) = word seed (first + 624) := by
  have oldest := window.held_add (show 0 < 624 by decide)
  have second := window.held_add (show 1 < 624 by decide)
  have distant := window.held_add (show 397 < 624 by decide)
  simp only [Fin.ofNat_zero, Fin.add_zero, Nat.add_zero] at oldest
  rw [word_add, ← second, ← distant, ← oldest]
  rfl

theorem output_eq (window : Window seed first generator) :
    generator.next.1 = output seed first :=
  congrArg temper window.successor_eq

/-- The new word takes the place of the oldest one, which lies a whole ring before it. -/
theorem advance (window : Window seed first generator) :
    Window seed (first + 1) generator.advance where
  oldest := by
    change generator.oldest + 1 = _
    rw [window.oldest]
    apply Fin.ext
    simp [Fin.val_add]
  held place lower upper := by
    have stored : generator.advance.ring =
        generator.ring.set generator.oldest (word seed (first + 624)) generator.oldest.isLt :=
      congrArg (fun value => generator.ring.set generator.oldest value generator.oldest.isLt)
        window.successor_eq
    have oldest : generator.oldest.val = first % 624 := congrArg Fin.val window.oldest
    simp only [stored, Fin.getElem_fin, Vector.getElem_set, Fin.val_ofNat, oldest]
    split
    · rename_i same
      rw [show place = first + 624 by omega]
    · rename_i apart
      exact window.held place (by omega) (by omega)

end Window

theorem window_skip (seed : UInt32) (count : Nat) : Window seed count ((seeded seed).skip count) := by
  induction count with
  | zero => exact window_seeded seed
  | succ count inductionHypothesis =>
      rw [skip_succ]
      exact inductionHypothesis.advance

/-- A generator that starts from a seed gives the outputs of the recurrence one after the other. -/
theorem nextByte_skip (seed : UInt32) (count : Nat) :
    ((seeded seed).skip count).nextByte =
      ((output seed count >>> 24).toUInt8, (seeded seed).skip (count + 1)) := by
  rw [skip_succ, ← (window_skip seed count).output_eq]
  rfl

/-- The usual seed begins with a known output. -/
example : output 5489 0 = 3499211612 := by
  rw [output, word_add, word_of_lt _ (by decide), word_of_lt _ (by decide), word_of_lt _ (by decide)]
  decide +kernel

end Chip8.MersenneTwister
