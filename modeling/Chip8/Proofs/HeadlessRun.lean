import Chip8.Headless
import Chip8.Proofs.FaultReport
import Chip8.Proofs.FrameRun
import Chip8.Proofs.Wording

/-!
This file holds the law of the run without a window. What it leaves is told by the frames of the
booted machine, and a run that has halted is not changed by a longer bound.
-/

namespace Chip8

open Text

namespace Options

/-- Arguments can follow a list that is accepted. -/
theorem parse_append {options read : Options} {arguments : List ByteString}
    (accepted : parse options arguments = (read, none)) (more : List ByteString) :
    parse options (arguments ++ more) = parse read more := by
  induction options, arguments using parse.induct with
  | case1 options =>
      simp only [parse, Prod.mk.injEq] at accepted
      rw [List.nil_append, accepted.1]
  | _ => simp_all [parse]

end Options

namespace Machine

theorem restart_fresh (generator other : MersenneTwister) (seed : Option UInt32) :
    (fresh other).restart seed =
      ((fresh generator).restart seed).withGenerator (seed.elim other MersenneTwister.seeded) := by
  cases seed <;> rfl

theorem load?_withGenerator (machine : Machine) (generator : MersenneTwister)
    (program : List UInt8) (origin : UInt16) :
    (machine.withGenerator generator).load? program origin =
      (machine.load? program origin).map fun loaded => loaded.withGenerator generator := by
  unfold load?
  split <;> rfl

/-- What a boot makes of a fresh machine depends on its generator in one place. -/
theorem boot_fresh {generator : MersenneTwister} {files : Rom.Files} {options : Options}
    {booted : Machine} (boots : (fresh generator).boot files options = (booted, none))
    (other : MersenneTwister) :
    (fresh other).boot files options =
      (booted.withGenerator (options.seed.elim other MersenneTwister.seeded), none) := by
  unfold boot at boots ⊢
  split at boots
  · simp at boots
  · rw [restart_fresh generator other]
    dsimp only at boots ⊢
    split at boots
    · simp at boots
    · rename_i loaded accepted
      obtain rfl := (Prod.mk.inj boots).1
      simp only [load?_withGenerator, accepted, Option.map_some]

/-- A seed leaves nothing of the generator from before the boot. -/
theorem boot_of_seeded {generator : MersenneTwister} {files : Rom.Files} {options : Options}
    {booted : Machine} (boots : (fresh generator).boot files options = (booted, none))
    (seeded : options.seed.isSome = true) (other : MersenneTwister) :
    (fresh other).boot files options = (booted, none) := by
  obtain ⟨value, given⟩ := Option.isSome_iff_exists.mp seeded
  have one := boot_fresh boots generator
  have another := boot_fresh boots other
  rw [given, Option.elim_some] at one another
  rw [another, ← one, boots]

theorem Controlled.runFrames {machine : Machine} (controlled : machine.Controlled) (speed : Int)
    (count : Nat) : (machine.runFrames speed count).Controlled := by
  induction count with
  | zero => exact controlled
  | succ count inductionHypothesis =>
      exact runFrame_keeps Controlled.step Controlled.tickTimers _ speed inductionHypothesis

/-- A boot shows a blank display. -/
theorem display_booted (machine : Machine) (files : Rom.Files) (options : Options)
    (success : (machine.boot files options).2 = none) :
    (machine.boot files options).1.display = Display.blank := by
  obtain ⟨memory, booted⟩ := machine.booted_eq files options success
  rw [booted]
  cases options.seed <;> rfl

end Machine

namespace Headless

/-- The arguments are accepted, and the program is booted on a fresh machine. -/
structure Starts (generator : MersenneTwister) (files : Rom.Files) (arguments : List ByteString)
    (options : Options) (machine : Machine) : Prop where
  accepted : Options.parse {} arguments = (options, none)
  booted : (Machine.fresh generator).boot files options = (machine, none)

/-- The report shows the machine after these frames, with the number of the frames and the number
of the tones among them. -/
def reportAfter (machine : Machine) (speed : Int) (frames : Nat) : ByteString :=
  Wording.printed (Wording.report (machine.runFrames speed frames) frames
    (machine.toneFrames speed frames))

/-- The complaint names the fault, its opcode and its address. -/
def haltText (machine : Machine) : ByteString :=
  Wording.printed (Wording.halt id machine)

/-- The run has come to its end, with its last machine. -/
def completed (options : Options) (machine : Machine) : Progress :=
  ({ scheduler := { speed := options.speed }, machine := machine } : Progress).run
    options.frames.toNat

/-- A run can be repeated when its generator is seeded, or when none of its frames draws a random
byte. -/
def Repeatable (options : Options) (machine : Machine) : Prop :=
  options.seed.isSome = true ∨
    Machine.Drawless (System.trail ⟨machine, { speed := options.speed }⟩
      (.replicate options.frames.toNat .frame))

/-- A run fails before its first frame, or it halts after a frame within its bound, or it ends with
its last frame. A run that has halted is the same with every larger bound. -/
structure RunLaw (generator : MersenneTwister) (files : Rom.Files) (arguments : List ByteString) :
    Prop where
  failed : ((run generator files arguments).status = 1 ∧
      (run generator files arguments).output = []) ↔
    (Options.parse {} arguments).2 ≠ none ∨
      ((Machine.fresh generator).boot files (Options.parse {} arguments).1).2 ≠ none
  halted : ∀ options machine frame, Starts generator files arguments options machine →
    frame ≤ options.frames.toNat → machine.HaltsAt options.speed frame →
      0 < frame ∧ run generator files arguments =
        ⟨2, reportAfter machine options.speed frame,
          haltText (machine.runFrames options.speed frame)⟩
  finished : ∀ options machine, Starts generator files arguments options machine →
    (∀ frame ≤ options.frames.toNat, ¬ machine.HaltsAt options.speed frame) →
      run generator files arguments =
        ⟨0, reportAfter machine options.speed options.frames.toNat, []⟩
  prolonged : ∀ options machine, Starts generator files arguments options machine →
    Repeatable options machine → (run generator files arguments).status = 2 →
      ∀ frames ≥ options.frames, ∀ others,
        Options.parse {} others = ({ options with frames := frames }, none) →
          ∀ other, run other files others = run generator files arguments

namespace Progress

/-- This is the progress of an unhalted run after these frames. -/
def after (machine : Machine) (speed : Int) (frames : Nat) : Progress where
  scheduler := { speed := speed, frames := frames }
  machine := machine.runFrames speed frames
  picture := (machine.runFrames speed frames).display
  toneFrames := machine.toneFrames speed frames

theorem advance_after (machine : Machine) (speed : Int) (frames : Nat) :
    (after machine speed frames).advance = after machine speed (frames + 1) := by
  have counted : toneCount (Frame.ofMachine (machine.runFrames speed (frames + 1))).tone =
      if 0 < (machine.runFrames speed (frames + 1)).sound then 1 else 0 := by
    unfold Frame.ofMachine
    dsimp only
    split <;> rfl
  have tones := machine.toneFrames_succ speed frames
  rw [← counted] at tones
  exact congrArg (fun number => { after machine speed (frames + 1) with toneFrames := number })
    tones.symm

theorem run_add (progress : Progress) (first second : Nat) :
    progress.run (first + second) = (progress.run first).run second := by
  induction first generalizing progress with
  | zero => rw [Nat.zero_add, run]
  | succ first inductionHypothesis =>
      rw [Nat.succ_add, run, run]
      split
      · rename_i halted
        rw [run_of_halted halted]
      · exact inductionHypothesis progress.advance

variable {machine : Machine} {speed : Int}

/-- A run processes all of its frames when the machine has not halted before the last one. -/
theorem run_of_unhalted {count : Nat}
    (unhalted : ∀ earlier < count, (machine.runFrames speed earlier).halted = false) :
    (after machine speed 0).run count = after machine speed count := by
  induction count with
  | zero => rfl
  | succ count inductionHypothesis =>
      have here : ¬ (after machine speed count).machine.halted = true := by
        rw [Bool.not_eq_true]
        exact unhalted count (Nat.lt_succ_self count)
      rw [run_add, inductionHypothesis fun earlier before => unhalted earlier (by omega), run,
        if_neg here, run, advance_after]

theorem run_of_haltsAt {frame count : Nat} (halts : machine.HaltsAt speed frame)
    (within : frame ≤ count) : (after machine speed 0).run count = after machine speed frame := by
  obtain ⟨rest, rfl⟩ := Nat.exists_eq_add_of_le within
  rw [run_add, run_of_unhalted halts.unhalted]
  exact run_of_halted halts.halted rest

/-- A run that ends early leaves the machine that all of its frames would leave. -/
theorem machine_run_after (machine : Machine) (speed : Int) (count : Nat) :
    ((after machine speed 0).run count).machine = machine.runFrames speed count := by
  cases ended : (machine.runFrames speed count).halted with
  | true =>
      obtain ⟨frame, within, halts⟩ := Machine.exists_haltsAt ended
      rw [run_of_haltsAt halts within]
      exact (Machine.runFrames_of_halted halts.halted within).symm
  | false =>
      rw [run_of_unhalted fun earlier before =>
        Machine.unhalted_of_unhalted ended (Nat.le_of_lt before)]
      rfl

end Progress

section Law

variable {generator : MersenneTwister} {files : Rom.Files} {arguments : List ByteString}
  {options : Options} {machine : Machine}

theorem Starts.unhalted (starts : Starts generator files arguments options machine) :
    machine.halted = false := by
  have unhalted := (Machine.fresh generator).halted_booted files options (by rw [starts.booted])
  rwa [starts.booted] at unhalted

theorem Starts.controlled (starts : Starts generator files arguments options machine) :
    machine.Controlled := by
  have controlled := Machine.Controlled.booted (Machine.fresh generator) files options
    (by rw [starts.booted])
  rwa [starts.booted] at controlled

/-- The booted machine runs, so that a halt comes after a frame. -/
theorem Starts.pos_of_haltsAt {frame : Nat}
    (starts : Starts generator files arguments options machine)
    (halts : machine.HaltsAt options.speed frame) : 0 < frame := by
  rw [Nat.pos_iff_ne_zero]
  rintro rfl
  exact Bool.noConfusion (starts.unhalted.symm.trans halts.halted)

theorem Starts.run_eq (starts : Starts generator files arguments options machine) :
    run generator files arguments = (completed options machine).outcome := by
  rw [run, starts.accepted]
  dsimp only
  rw [starts.booted]
  rfl

/-- The picture that is kept before the first frame is the blank display of the machine. -/
theorem Starts.completed_eq (starts : Starts generator files arguments options machine) :
    completed options machine =
      (Progress.after machine options.speed 0).run options.frames.toNat := by
  have blank := (Machine.fresh generator).display_booted files options (by rw [starts.booted])
  rw [starts.booted] at blank
  rw [completed, Progress.after, Machine.runFrames, blank]
  rfl

/-- The lines are those of the report, since a wait names one of the sixteen registers. -/
theorem Starts.printout_after (starts : Starts generator files arguments options machine)
    (frames : Nat) :
    printout (.after machine options.speed frames) = reportAfter machine options.speed frames := by
  have numbered : (machine.runFrames options.speed frames).waitRegister.val < 16 :=
    Nat.lt_succ_of_le (starts.controlled.runFrames options.speed frames).waitRegister
  simp only [printout, Progress.after, reportAfter, Wording.report, Wording.printed_append,
    Wording.pictureText_eq, Wording.stateLine_eq, Wording.registerLines_eq,
    Wording.waitLine_eq _ numbered, countLine, Wording.counts, Wording.ascii_eq,
    Wording.decimal_eq]

theorem Starts.machine_completed (starts : Starts generator files arguments options machine) :
    (completed options machine).machine =
      machine.runFrames options.speed options.frames.toNat := by
  rw [starts.completed_eq, Progress.machine_run_after]

theorem Starts.run_of_haltsAt {frame : Nat}
    (starts : Starts generator files arguments options machine)
    (within : frame ≤ options.frames.toNat) (halts : machine.HaltsAt options.speed frame) :
    run generator files arguments =
      ⟨2, reportAfter machine options.speed frame,
        haltText (machine.runFrames options.speed frame)⟩ := by
  have halted : (Progress.after machine options.speed frame).machine.halted = true := halts.halted
  rw [starts.run_eq, starts.completed_eq, Progress.run_of_haltsAt halts within, Progress.outcome,
    if_pos halted, if_pos halted, starts.printout_after,
    Wording.haltLine_eq Wording.lowerDigit_spells]
  rfl

theorem Starts.run_of_not_haltsAt (starts : Starts generator files arguments options machine)
    (never : ∀ frame ≤ options.frames.toNat, ¬ machine.HaltsAt options.speed frame) :
    run generator files arguments =
      ⟨0, reportAfter machine options.speed options.frames.toNat, []⟩ := by
  have unhalted : (machine.runFrames options.speed options.frames.toNat).halted = false := by
    rw [← Bool.not_eq_true]
    intro halted
    obtain ⟨frame, within, halts⟩ := Machine.exists_haltsAt halted
    exact never frame within halts
  have last : ¬ (Progress.after machine options.speed options.frames.toNat).machine.halted = true :=
    Bool.not_eq_true _ ▸ unhalted
  rw [starts.run_eq, starts.completed_eq, Progress.run_of_unhalted fun earlier before =>
    Machine.unhalted_of_unhalted unhalted (Nat.le_of_lt before)]
  rw [Progress.outcome, if_neg last, if_neg last, starts.printout_after]

/-- The status tells a halt from all other ends. -/
theorem Starts.exists_haltsAt (starts : Starts generator files arguments options machine)
    (status : (run generator files arguments).status = 2) :
    ∃ frame ≤ options.frames.toNat, machine.HaltsAt options.speed frame := by
  by_contra never
  simp only [not_exists, not_and] at never
  simp [starts.run_of_not_haltsAt never] at status

theorem Starts.status_ne_one (starts : Starts generator files arguments options machine) :
    (run generator files arguments).status ≠ 1 := by
  rw [starts.run_eq, Progress.outcome]
  dsimp only
  split <;> decide

/-- Machines that run alike are reported alike. -/
theorem reportAfter_of_runsAlike {other : Machine} {speed : Int} {count frame : Nat}
    (alike : machine.RunsAlike other speed count) (within : frame ≤ count) :
    reportAfter other speed frame = reportAfter machine speed frame ∧
      haltText (other.runFrames speed frame) = haltText (machine.runFrames speed frame) := by
  obtain ⟨generator, same⟩ := alike frame within
  rw [reportAfter, reportAfter, alike.toneFrames within, same]
  exact ⟨rfl, rfl⟩

/-- A second start of a repeatable run gives a machine that runs alike. -/
theorem Starts.again {frames : Int} {others : List ByteString}
    (starts : Starts generator files arguments options machine)
    (repeatable : Repeatable options machine)
    (read : Options.parse {} others = ({ options with frames := frames }, none))
    (other : MersenneTwister) :
    ∃ second, Starts other files others { options with frames := frames } second ∧
      machine.RunsAlike second options.speed options.frames.toNat := by
  rcases repeatable with seeded | undrawn
  · exact ⟨machine, ⟨read, Machine.boot_of_seeded starts.booted seeded other⟩, .refl _ _ _⟩
  · exact ⟨_, ⟨read, Machine.boot_fresh starts.booted other⟩,
      Machine.runsAlike_of_drawless _ undrawn⟩

theorem starts_of_none (read : (Options.parse {} arguments).2 = none)
    (success : ((Machine.fresh generator).boot files (Options.parse {} arguments).1).2 = none) :
    Starts generator files arguments (Options.parse {} arguments).1
      ((Machine.fresh generator).boot files (Options.parse {} arguments).1).1 :=
  ⟨Prod.ext rfl read, Prod.ext rfl success⟩

/-- A refused list and a failed boot end the run before its first frame. -/
theorem run_of_failure (failure : (Options.parse {} arguments).2 ≠ none ∨
      ((Machine.fresh generator).boot files (Options.parse {} arguments).1).2 ≠ none) :
    (run generator files arguments).status = 1 ∧ (run generator files arguments).output = [] := by
  rw [run]
  split
  · exact ⟨rfl, rfl⟩
  · rename_i options read
    rw [read] at failure
    split
    · exact ⟨rfl, rfl⟩
    · rename_i machine booted
      rw [booted] at failure
      simp at failure

end Law

end Headless

/-- Every run without a window obeys the law. -/
theorem headless_run_law (generator : MersenneTwister) (files : Rom.Files)
    (arguments : List ByteString) : Headless.RunLaw generator files arguments := by
  constructor
  case failed =>
    refine ⟨?_, Headless.run_of_failure⟩
    rintro ⟨status, -⟩
    by_contra succeeded
    simp only [not_or, not_not] at succeeded
    exact (Headless.starts_of_none succeeded.1 succeeded.2).status_ne_one status
  case halted =>
    intro options machine frame starts within halts
    exact ⟨starts.pos_of_haltsAt halts, starts.run_of_haltsAt within halts⟩
  case finished =>
    intro options machine starts never
    exact starts.run_of_not_haltsAt never
  case prolonged =>
    intro options machine starts repeatable status frames longer others read other
    obtain ⟨frame, within, halts⟩ := starts.exists_haltsAt status
    obtain ⟨second, again, alike⟩ := starts.again repeatable read other
    obtain ⟨report, complaint⟩ := Headless.reportAfter_of_runsAlike alike within
    rw [starts.run_of_haltsAt within halts, ← report, ← complaint]
    exact again.run_of_haltsAt (Nat.le_trans within (Int.toNat_le_toNat longer))
      (alike.haltsAt within halts)

/-- The program draws the first row of a glyph before it starts the speaker and returns. -/
def drawnReturn : List UInt8 :=
  [0xD0, 0x01, 0x62, 0x05, 0xF2, 0x18, 0x00, 0xEE]

/-- The return halts the first frame, also when hundreds of frames are allowed. The report starts with
the drawn row, and behind the picture it shows the state, the registers and the counts. -/
theorem headless_run_law_of_drawn_return :
    let files := Rom.Files.holding drawnReturn
    let arguments := [ascii "r", ascii "--seed", ascii "7"]
    let outcome := Headless.run (MersenneTwister.seeded 0) files arguments
    outcome.status = 2 ∧
      Headless.run (MersenneTwister.seeded 1) files (arguments ++ [ascii "--frames", ascii "700"]) =
        outcome ∧
      outcome.errors = ascii "[chip8] halted: stack underflow (opcode 00ee at 0206)\n" ∧
      outcome.output.take 134 =
        ascii "+----------------------------------------------------------------+\n" ++
          ascii "|####                                                            |\n" ∧
      outcome.output.drop 2278 =
        ascii "PC=0208  I=0000  DT=00  ST=05  depth=0  mode=RUN\n" ++
          ascii "V0=00  V1=00  V2=05  V3=00  V4=00  V5=00  V6=00  V7=00\n" ++
          ascii "V8=00  V9=00  VA=00  VB=00  VC=00  VD=00  VE=00  VF=00\n" ++
          ascii "frames=1  tone frames=1\n" := by
  intro files arguments outcome
  let options : Options := { romPath := ascii "r", seed := some 7 }
  let machine := ((Machine.fresh (MersenneTwister.seeded 0)).boot files options).1
  have law := headless_run_law (MersenneTwister.seeded 0) files arguments
  have starts : Headless.Starts (MersenneTwister.seeded 0) files arguments options machine :=
    ⟨by decide +kernel, Prod.ext rfl (by decide +kernel)⟩
  have halts : machine.HaltsAt options.speed 1 := ⟨by decide +kernel, by decide +kernel⟩
  obtain ⟨-, run⟩ := law.halted options machine 1 starts (by decide) halts
  have status : outcome.status = 2 := congrArg Headless.Outcome.status run
  have longer : Options.parse {} (arguments ++ [ascii "--frames", ascii "700"]) =
      ({ options with frames := 700 }, none) := by
    rw [Options.parse_append starts.accepted]
    decide +kernel
  have prolonged := law.prolonged options machine starts (.inl rfl) status 700 (by decide) _ longer
    (MersenneTwister.seeded 1)
  refine ⟨status, prolonged, ?texts⟩
  case texts =>
    simp only [outcome, run]
    decide +kernel

end Chip8
