import Chip8.Proofs.SessionStages
import Chip8.Window.Launch
import Mathlib.Data.List.DropRight
import Mathlib.Data.List.Induction
import Mathlib.Logic.Function.Iterate

/-!
This file holds the tone of a speaker along its whole life. The audible samples of a life are an
initial piece of one wave, however the device pulls them and wherever the tone is stopped, and the
pitch is that of the first order to play since the last stop.
-/

namespace Chip8.Window

/-- The phase moves once for each sample. -/
def phaseAfter (phaseStep phase : Float32) (count : Nat) : Float32 :=
  (fun phase => advancePhase phase phaseStep)^[count] phase

/-- A sample is taken behind the move of its phase. -/
def wave (phaseStep phase : Float32) (count : Nat) : List Sample :=
  (List.range count).map fun number => waveform (phaseAfter phaseStep phase (number + 1))

theorem phaseAfter_add (phaseStep phase : Float32) (first second : Nat) :
    phaseAfter phaseStep phase (first + second) =
      phaseAfter phaseStep (phaseAfter phaseStep phase first) second := by
  rw [phaseAfter, Nat.add_comm, Function.iterate_add_apply]
  rfl

theorem wave_add (phaseStep phase : Float32) (first second : Nat) :
    wave phaseStep phase (first + second) =
      wave phaseStep phase first ++ wave phaseStep (phaseAfter phaseStep phase first) second := by
  rw [wave, List.range_add, List.map_append, List.map_map]
  congr 1
  apply List.map_congr_left
  intro number _
  rw [Function.comp_apply, Nat.add_assoc, phaseAfter_add]

namespace Speaker

/-- A frequency need not be whole. -/
def stepAt (hertz : Float) : Float32 :=
  (hertz / Float.ofNat sampleRate).toFloat32

def playAt (speaker : Speaker) (hertz : Float) : Speaker :=
  if speaker.playing then speaker
  else { speaker with playing := true, phaseStep := stepAt hertz }

/-- The frames of a machine order a whole frequency. -/
theorem play_eq_playAt (speaker : Speaker) (hertz : Int) :
    speaker.play hertz = speaker.playAt (Float.ofInt hertz) := rfl

section Pulls

variable {speaker : Speaker}

theorem pull_of_silent (silent : speaker.playing = false) (count : Nat) :
    speaker.pull count = (List.replicate count .silence, speaker) := by
  have sample : speaker.nextSample = (.silence, speaker) := by
    rw [nextSample, silent]
    rfl
  induction count with
  | zero => rfl
  | succ count inductionHypothesis =>
      rw [pull_succ, sample, inductionHypothesis, List.replicate_succ]

/-- A speaker that plays gives the next piece of its wave. -/
theorem pull_of_playing (playing : speaker.playing = true) (count : Nat) :
    speaker.pull count =
      (wave speaker.phaseStep speaker.phase count,
        { speaker with phase := phaseAfter speaker.phaseStep speaker.phase count }) := by
  induction count generalizing speaker with
  | zero => rfl
  | succ count inductionHypothesis =>
      let moved := { speaker with phase := advancePhase speaker.phase speaker.phaseStep }
      have sample : speaker.nextSample = (waveform moved.phase, moved) := by
        rw [nextSample, if_pos playing]
      have rest : moved.pull count = _ := inductionHypothesis playing
      rw [pull_succ, sample, rest, Nat.add_comm, wave_add, phaseAfter_add]
      rfl

end Pulls

/-- These are the calls that a speaker gets. A pull asks for samples by the number of their bytes. -/
inductive Call
  | openDevice (host : Host)
  | closeDevice
  | play (hertz : Float)
  | stop
  | pull (bytes : Int)

/-- A call may start the tone or stop it. -/
def Call.control? : Call → Option Bool
  | .play _ => some true
  | .stop => some false
  | _ => none

def Call.hertz? : Call → Option Float
  | .play hertz => some hertz
  | _ => none

/-- Only a pull is answered with samples, and it is answered without a look at the device. -/
def answer (speaker : Speaker) : Call → List Sample × Speaker
  | .openDevice host => ([], (speaker.openDevice host).1)
  | .closeDevice => ([], speaker.closeDevice.1)
  | .play hertz => ([], speaker.playAt hertz)
  | .stop => ([], speaker.stop)
  | .pull bytes => speaker.pullBytes bytes

/-- A life starts with a fresh speaker. -/
def after (calls : List Call) : Speaker :=
  calls.foldl (fun speaker call => (speaker.answer call).2) {}

/-- The last call that controls the tone is an order to play. -/
def Sounds (calls : List Call) : Prop :=
  (calls.filterMap Call.control?).getLast? = some true

instance (calls : List Call) : Decidable (Sounds calls) :=
  inferInstanceAs (Decidable (_ = _))

/-- The pitch is that of the first order to play since the last stop. -/
def pitch? (calls : List Call) : Option Float :=
  (calls.rtakeWhile fun call => call.control? ≠ some false).findSome? Call.hertz?

/-- A pull is known with the calls before it. -/
structure Pull where
  before : List Call
  bytes : Int

namespace Pull

def length (pull : Pull) : Nat :=
  (pull.bytes / sampleBytes).toNat

def samples (pull : Pull) : List Sample :=
  ((after pull.before).pullBytes pull.bytes).1

end Pull

def Call.pull? (before : List Call) : Call → Option Pull
  | .pull bytes => some ⟨before, bytes⟩
  | _ => none

def pullsFrom (before : List Call) : List Call → List Pull
  | [] => []
  | call :: rest => (call.pull? before).toList ++ pullsFrom (before ++ [call]) rest

def pulls (calls : List Call) : List Pull :=
  pullsFrom [] calls

def audiblePulls (calls : List Call) : List Pull :=
  (pulls calls).filter fun pull => Sounds pull.before

/-- This is what is heard in a life, the silence left out. -/
def heard (calls : List Call) : List Sample :=
  (audiblePulls calls).flatMap Pull.samples

def heardLength (calls : List Call) : Nat :=
  (audiblePulls calls).foldl (fun count pull => count + pull.length) 0

section Concat

variable (calls : List Call) (call : Call)

theorem after_concat : after (calls ++ [call]) = ((after calls).answer call).2 :=
  List.foldl_concat _ _ _ _

theorem sounds_concat :
    Sounds (calls ++ [call]) ↔
      match call.control? with
      | none => Sounds calls
      | some playing => playing = true := by
  unfold Sounds
  rw [List.filterMap_append]
  cases controlled : call.control? with
  | none => simp [controlled]
  | some playing => simp [controlled]

theorem pitch?_concat :
    pitch? (calls ++ [call]) =
      match call with
      | .stop => none
      | _ => (pitch? calls).or call.hertz? := by
  unfold pitch?
  cases call with
  | stop =>
      rw [List.rtakeWhile_concat_neg]
      · rfl
      · simp [Call.control?]
  | _ =>
      rw [List.rtakeWhile_concat_pos, List.findSome?_append]
      · simp
      · simp [Call.control?]

theorem pullsFrom_append (before first second : List Call) :
    pullsFrom before (first ++ second) =
      pullsFrom before first ++ pullsFrom (before ++ first) second := by
  induction first generalizing before with
  | nil => simp [pullsFrom]
  | cons call rest inductionHypothesis => simp [pullsFrom, inductionHypothesis]

theorem audiblePulls_concat :
    audiblePulls (calls ++ [call]) =
      audiblePulls calls ++ if Sounds calls then (call.pull? calls).toList else [] := by
  have listed : pulls (calls ++ [call]) = pulls calls ++ (call.pull? calls).toList := by
    simp [pulls, pullsFrom_append, pullsFrom]
  rw [audiblePulls, listed, List.filter_append]
  congr 1
  cases call <;> simp [Call.pull?, List.filter_singleton]

end Concat

/-- A speaker is tuned to a pitch while it plays. -/
def Tuned (speaker : Speaker) : Option Float → Prop
  | none => speaker.playing = false
  | some hertz => speaker.playing = true ∧ speaker.phaseStep = stepAt hertz

section Answers

variable (speaker : Speaker)

theorem openDevice_eq (host : Host) :
    ∃ deviceOpen, (speaker.openDevice host).1 = { speaker with deviceOpen := deviceOpen } := by
  unfold openDevice
  split
  · exact ⟨_, rfl⟩
  · exact ⟨_, rfl⟩

theorem closeDevice_eq :
    ∃ deviceOpen, speaker.closeDevice.1 = { speaker with deviceOpen := deviceOpen } := by
  unfold closeDevice
  split
  · exact ⟨_, rfl⟩
  · exact ⟨_, rfl⟩

theorem playAt_of_playing {speaker : Speaker} (playing : speaker.playing = true) (hertz : Float) :
    speaker.playAt hertz = speaker :=
  if_pos playing

/-- A pull moves the phase, and no other call does. -/
theorem phase_answer {before : List Call} {call : Call} (unpulled : call.pull? before = none) :
    (speaker.answer call).2.phase = speaker.phase := by
  cases call with
  | openDevice host =>
      obtain ⟨_, opened⟩ := speaker.openDevice_eq host
      rw [answer, opened]
  | closeDevice =>
      obtain ⟨_, closed⟩ := speaker.closeDevice_eq
      rw [answer, closed]
  | play hertz =>
      rw [answer, playAt]
      split <;> rfl
  | stop => rfl
  | pull bytes => simp [Call.pull?] at unpulled

/-- A stop ends the pitch, and an order to play sets it when there is none. -/
theorem Tuned.answer {speaker : Speaker} {pitch : Option Float} (tuned : speaker.Tuned pitch)
    (call : Call) :
    (speaker.answer call).2.Tuned
      (match call with
      | .stop => none
      | _ => pitch.or call.hertz?) := by
  cases call with
  | openDevice host =>
      obtain ⟨_, opened⟩ := speaker.openDevice_eq host
      rw [Speaker.answer, opened]
      cases pitch <;> exact tuned
  | closeDevice =>
      obtain ⟨_, closed⟩ := speaker.closeDevice_eq
      rw [Speaker.answer, closed]
      cases pitch <;> exact tuned
  | play hertz =>
      cases pitch with
      | none =>
          have silent : speaker.playing = false := tuned
          rw [Speaker.answer, playAt, silent]
          exact ⟨rfl, rfl⟩
      | some first =>
          rw [Speaker.answer, playAt_of_playing tuned.1]
          exact tuned
  | stop => rfl
  | pull bytes =>
      obtain ⟨_, pulled⟩ := speaker.pull_eq (bytes / sampleBytes).toNat
      rw [Speaker.answer, pullBytes, pulled]
      cases pitch <;> exact tuned

end Answers

theorem tuned_after (calls : List Call) : (after calls).Tuned (pitch? calls) := by
  induction calls using List.reverseRecOn with
  | nil => rfl
  | append_singleton calls call inductionHypothesis =>
      rw [after_concat, pitch?_concat]
      exact inductionHypothesis.answer call

/-- The tone sounds exactly while there is a pitch. -/
theorem sounds_iff_pitch (calls : List Call) : Sounds calls ↔ (pitch? calls).isSome = true := by
  induction calls using List.reverseRecOn with
  | nil => simp [Sounds, pitch?]
  | append_singleton calls call inductionHypothesis =>
      rw [sounds_concat, pitch?_concat]
      cases call with
      | play hertz => simp [Call.control?, Call.hertz?]
      | stop => simp [Call.control?]
      | _ => simpa [Call.control?, Call.hertz?] using inductionHypothesis

theorem playing_of_sounds {calls : List Call} (sounds : Sounds calls) :
    ∃ hertz, pitch? calls = some hertz ∧ (after calls).playing = true ∧
      (after calls).phaseStep = stepAt hertz := by
  obtain ⟨hertz, found⟩ := Option.isSome_iff_exists.mp ((sounds_iff_pitch calls).mp sounds)
  have tuned := tuned_after calls
  rw [found] at tuned
  exact ⟨hertz, found, tuned⟩

theorem silent_of_not_sounds {calls : List Call} (unsounded : ¬ Sounds calls) :
    (after calls).playing = false := by
  rw [sounds_iff_pitch, Option.not_isSome_iff_eq_none] at unsounded
  have tuned := tuned_after calls
  rwa [unsounded] at tuned

/-- The pitch is one of the frequencies that were ordered. -/
theorem play_mem_of_pitch {calls : List Call} {hertz : Float}
    (found : pitch? calls = some hertz) : .play hertz ∈ calls := by
  obtain ⟨call, member, ordered⟩ := List.exists_of_findSome?_eq_some found
  have listed : call ∈ calls := (List.rtakeWhile_suffix _ _).subset member
  cases call with
  | play other =>
      obtain rfl := Option.some.inj ordered
      exact listed
  | _ => simp [Call.hertz?] at ordered

theorem pullBytes_of_sounds (pull : Pull) (sounds : Sounds pull.before) :
    ∃ hertz, pitch? pull.before = some hertz ∧
      (after pull.before).pullBytes pull.bytes =
        (wave (stepAt hertz) (after pull.before).phase pull.length,
          { after pull.before with
            phase := phaseAfter (stepAt hertz) (after pull.before).phase pull.length }) := by
  obtain ⟨hertz, found, playing, tuned⟩ := playing_of_sounds sounds
  refine ⟨hertz, found, ?_⟩
  rw [← tuned]
  exact pull_of_playing playing pull.length

/-- While all orders have one frequency, the phase tells how much was heard. -/
structure Steady (hertz : Float) (calls : List Call) : Prop where
  heard : heard calls = wave (stepAt hertz) 0 (heardLength calls)
  phase : (after calls).phase = phaseAfter (stepAt hertz) 0 (heardLength calls)

namespace Steady

variable {hertz : Float} {calls : List Call}

theorem pull (steady : Steady hertz calls) (bytes : Int)
    (same : ∀ other, .play other ∈ calls → other = hertz) :
    Steady hertz (calls ++ [.pull bytes]) := by
  let pull : Pull := ⟨calls, bytes⟩
  have moved : after (calls ++ [.pull bytes]) = ((after calls).pullBytes bytes).2 :=
    after_concat calls (.pull bytes)
  by_cases sounds : Sounds calls
  · obtain ⟨other, found, pulled⟩ := pullBytes_of_sounds pull sounds
    obtain rfl := same other (play_mem_of_pitch found)
    have listed : audiblePulls (calls ++ [.pull bytes]) = audiblePulls calls ++ [pull] := by
      rw [audiblePulls_concat, if_pos sounds]
      rfl
    have longer : heardLength (calls ++ [.pull bytes]) = heardLength calls + pull.length := by
      simp [heardLength, listed]
    have samples : pull.samples = wave (stepAt other) (after calls).phase pull.length :=
      congrArg Prod.fst pulled
    constructor
    · rw [longer, wave_add, ← steady.heard, ← steady.phase, ← samples]
      simp [Speaker.heard, listed]
    · rw [longer, phaseAfter_add, ← steady.phase, moved]
      exact congrArg (fun result => result.2.phase) pulled
  · have listed : audiblePulls (calls ++ [.pull bytes]) = audiblePulls calls := by
      rw [audiblePulls_concat, if_neg sounds, List.append_nil]
    have still : after (calls ++ [.pull bytes]) = after calls := by
      rw [moved, pullBytes, pull_of_silent (silent_of_not_sounds sounds)]
    constructor
    · rw [Speaker.heard, heardLength, listed]
      exact steady.heard
    · rw [heardLength, listed, still]
      exact steady.phase

theorem unpulled (steady : Steady hertz calls) {call : Call}
    (unpulled : call.pull? calls = none) : Steady hertz (calls ++ [call]) := by
  have listed : audiblePulls (calls ++ [call]) = audiblePulls calls := by
    rw [audiblePulls_concat, unpulled]
    simp
  constructor
  · rw [Speaker.heard, heardLength, listed]
    exact steady.heard
  · rw [heardLength, listed, after_concat, phase_answer _ unpulled]
    exact steady.phase

end Steady

theorem steady_of_same {hertz : Float} {calls : List Call}
    (same : ∀ other, .play other ∈ calls → other = hertz) : Steady hertz calls := by
  induction calls using List.reverseRecOn with
  | nil => exact ⟨rfl, rfl⟩
  | append_singleton calls call inductionHypothesis =>
      have earlier : ∀ other, .play other ∈ calls → other = hertz :=
        fun other member => same other (List.mem_append_left _ member)
      have steady := inductionHypothesis earlier
      cases call with
      | pull bytes => exact steady.pull bytes earlier
      | _ => exact steady.unpulled rfl

/-- A pull is silent and leaves the speaker as it is unless the last order was to play. While all
orders have one frequency, the audible samples are an initial piece of one wave that begins in phase
zero. In general every pull continues a wave of the first frequency since the last stop, and an order
to play changes nothing while the speaker plays. -/
theorem tone_independent_of_pulls (calls : List Call) :
    (∀ hertz : Int, (after calls).play hertz = after (calls ++ [.play (Float.ofInt hertz)])) ∧
      (∀ pull ∈ pulls calls, ¬ Sounds pull.before →
        (after pull.before).pullBytes pull.bytes =
          (List.replicate pull.length .silence, after pull.before)) ∧
      (∀ hertz, (∀ other, .play other ∈ calls → other = hertz) →
        heard calls = wave (stepAt hertz) 0 (heardLength calls)) ∧
      (∀ pull ∈ audiblePulls calls, ∃ hertz, pitch? pull.before = some hertz ∧
        (after pull.before).pullBytes pull.bytes =
          (wave (stepAt hertz) (after pull.before).phase pull.length,
            { after pull.before with
              phase := phaseAfter (stepAt hertz) (after pull.before).phase pull.length })) ∧
      (Sounds calls → ∀ hertz, after (calls ++ [.play hertz]) = after calls) := by
  refine ⟨?ordered, ?silent, ?steady, ?tuned, ?again⟩
  case ordered =>
    intro hertz
    rw [after_concat, play_eq_playAt]
    rfl
  case silent =>
    intro pull _ unsounded
    exact pull_of_silent (silent_of_not_sounds unsounded) pull.length
  case steady =>
    intro hertz same
    exact (steady_of_same same).heard
  case tuned =>
    intro pull member
    have sounds : Sounds pull.before := by simpa using (List.mem_filter.mp member).2
    exact pullBytes_of_sounds pull sounds
  case again =>
    intro sounds hertz
    obtain ⟨_, _, playing, _⟩ := playing_of_sounds sounds
    rw [after_concat]
    exact playAt_of_playing playing hertz

/-- Four samples are heard in three pulls, around a stop, a repeated order and a closed device. -/
theorem tone_independent_of_three_pulls :
    let calls : List Call :=
      [.openDevice {}, .play 40, .pull 6, .play 40, .pull 4, .stop, .pull 9, .closeDevice,
        .openDevice {}, .play 40, .pull 11]
    heard calls = wave (stepAt 40) 0 4 ∧
      ((after (calls.take 6)).pullBytes 9).1 = [.silence, .silence] ∧
      after (calls ++ [.play 440]) = after calls := by
  intro calls
  obtain ⟨-, silent, steady, -, again⟩ := tone_independent_of_pulls calls
  refine ⟨steady 40 ?same, ?silence, again ?sounds 440⟩
  case same =>
    intro other member
    simpa [calls] using member
  case silence =>
    exact congrArg Prod.fst (silent ⟨calls.take 6, 9⟩ (by simp [calls, pulls, pullsFrom, Call.pull?])
      (by decide))
  case sounds => decide

end Speaker

end Chip8.Window
