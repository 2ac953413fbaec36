import Chip8.Scheduler

/-!
This file holds the square wave. The phase of the wave moves by one step for every audible sample
and stands still while the speaker is silent.
-/

namespace Chip8.Window

/-- The audible samples have one amplitude and two signs. -/
inductive Sample
  | silence
  | crest
  | trough
deriving DecidableEq

/-- The device is given numbers. -/
def Sample.amplitude : Sample → Float32
  | .silence => 0
  | .crest => 0.15
  | .trough => -0.15

/-- The speaker keeps its step and its phase when its device closes. -/
structure Speaker where
  deviceOpen : Bool := false
  playing : Bool := false
  phaseStep : Float32 := 0
  phase : Float32 := 0

/-- The device plays this many samples in a second. -/
def sampleRate : Nat := 48000

/-- Samples are 32-bit floating-point numbers in the order of the machine's bytes. -/
def sampleFormat : Nat := 33056

def channelCount : Nat := 1

/-- The device asks for this many samples at once. -/
def bufferLength : Nat := 512

/-- Each sample takes this many bytes. -/
def sampleBytes : Int := 4

/-- The whole part is rounded towards zero. -/
def wholePart (value : Float32) : Float32 :=
  if value < 0 then value.ceil else value.floor

/-- The phase stays within one period. -/
def advancePhase (phase phaseStep : Float32) : Float32 :=
  let moved := phase + phaseStep
  moved - wholePart moved

/-- The first half of a period is positive. -/
def waveform (phase : Float32) : Sample :=
  if phase < 0.5 then .crest else .trough

/-- A frequency is divided by the sample rate in double precision. -/
def stepOf (hertz : Int) : Float32 :=
  (Float.ofInt hertz / Float.ofNat sampleRate).toFloat32

namespace Speaker

/-- A speaker that already plays keeps its step. -/
def play (speaker : Speaker) (hertz : Int) : Speaker :=
  if speaker.playing then speaker
  else { speaker with playing := true, phaseStep := stepOf hertz }

def stop (speaker : Speaker) : Speaker :=
  { speaker with playing := false }

def obey (speaker : Speaker) : Tone → Speaker
  | .play hertz => speaker.play hertz
  | .stop => speaker.stop

def nextSample (speaker : Speaker) : Sample × Speaker :=
  if speaker.playing then
    let phase := advancePhase speaker.phase speaker.phaseStep
    (waveform phase, { speaker with phase := phase })
  else (.silence, speaker)

/-- The samples are collected from the latest to the earliest. -/
def collect (speaker : Speaker) (collected : List Sample) : Nat → List Sample × Speaker
  | 0 => (collected.reverse, speaker)
  | count + 1 =>
      let (sample, next) := speaker.nextSample
      next.collect (sample :: collected) count

/-- The device pulls samples in the order of their sounding. -/
def pull (speaker : Speaker) (count : Nat) : List Sample × Speaker :=
  speaker.collect [] count

/-- A pull that is measured in bytes gives the whole samples in it. -/
def pullBytes (speaker : Speaker) (bytes : Int) : List Sample × Speaker :=
  speaker.pull (bytes / sampleBytes).toNat

/-- What is already collected comes first. -/
theorem collect_eq (speaker : Speaker) (collected : List Sample) (count : Nat) :
    speaker.collect collected count =
      (collected.reverse ++ (speaker.pull count).1, (speaker.pull count).2) := by
  induction count generalizing speaker collected with
  | zero => simp [pull, collect]
  | succ count inductionHypothesis =>
      simp only [pull, collect]
      rw [inductionHypothesis, inductionHypothesis _ [_]]
      simp

theorem pull_zero (speaker : Speaker) : speaker.pull 0 = ([], speaker) := rfl

/-- A pull starts with the next sample. -/
theorem pull_succ (speaker : Speaker) (count : Nat) :
    speaker.pull (count + 1) =
      (speaker.nextSample.1 :: (speaker.nextSample.2.pull count).1,
        (speaker.nextSample.2.pull count).2) := by
  simp only [pull, collect]
  rw [collect_eq]
  simp [pull]

/-- Two pulls in a row are one longer pull. -/
theorem pull_add (speaker : Speaker) (first second : Nat) :
    speaker.pull (first + second) =
      ((speaker.pull first).1 ++ ((speaker.pull first).2.pull second).1,
        ((speaker.pull first).2.pull second).2) := by
  induction first generalizing speaker with
  | zero => simp [pull_zero]
  | succ first inductionHypothesis =>
      rw [Nat.succ_add, pull_succ, inductionHypothesis, pull_succ]
      simp

end Speaker

end Chip8.Window
