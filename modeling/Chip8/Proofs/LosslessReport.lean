import Chip8.Proofs.HeadlessRun
import Chip8.Proofs.KeyWait
import Chip8.Proofs.Legibility

/-!
This file holds what the report of a run without a window tells about its last machine. Two runs
with one report agree on everything that the report mentions, and on the whole picture.
-/

namespace Chip8

open Report Text

namespace Report

variable {Source : Type}

theorem tells_hexByte (value : Source → UInt8) :
    Tells (fun source => hexByte lowerDigit (value source))
      (fun first second => value first = value second) :=
  .of_length 2 (fun _ => rfl) fun _ _ => hexByte_injective

theorem tells_hexWord (value : Source → UInt16) :
    Tells (fun source => hexWord lowerDigit (value source))
      (fun first second => value first = value second) :=
  .of_length 4 (fun _ => rfl) fun _ _ => hexWord_injective

theorem modeText_injective {first second : Mode} (same : modeText first = modeText second) :
    first = second := by
  cases first <;> cases second
  · rfl
  · exact absurd same (by decide)
  · exact absurd same (by decide)
  · rfl

theorem tells_modeText (mode : Source → Mode) :
    Tells (fun source => modeText (mode source)) (fun first second => mode first = mode second) := by
  refine .of_length 3 ?_ fun _ _ => modeText_injective
  intro source
  cases mode source <;> rfl

/-- A row of the picture tells which of its pixels are lit. -/
theorem tells_pictureRow (picture : Source → Display) (row : Nat) :
    Tells (fun source => pictureRow (picture source) row)
      (fun first second => ∀ column < Display.width,
        (picture first).lit column row = (picture second).lit column row) := by
  apply Tells.of_length 67
  · exact fun source => length_pictureRow (picture source) row
  · intro first second same column inside
    simp only [pictureRow] at same
    obtain ⟨framed, -⟩ := List.append_inj same (by simp)
    have cells := List.map_inj_left.mp (List.append_cancel_left framed) column
      (List.mem_range.mpr inside)
    cases one : (picture first).lit column row <;>
      cases other : (picture second).lit column row <;> simp [one, other] at cells ⊢

theorem tells_pictureText (picture : Source → Display) :
    Tells (fun source => pictureText (picture source))
      (fun first second => ∀ row < Display.height, ∀ column < Display.width,
        (picture first).lit column row = (picture second).lit column row) := by
  have rows := Tells.flatMap (List.range Display.height) (tells_pictureRow picture)
  refine ((rows.heading border).closing border).mono ?_
  intro first second agree row inside
  exact agree row (List.mem_range.mpr inside)

theorem tells_registerLines (machine : Source → Machine) :
    Tells (fun source => registerLines (machine source))
      (fun first second => (machine first).registers = (machine second).registers) := by
  have each (target : Register) : Tells (fun source => registerText (machine source) target)
      (fun first second =>
        (machine first).register target = (machine second).register target) :=
    ((tells_hexByte fun source => (machine source).register target).heading _).closing _
  refine (Tells.flatMap (List.finRange 16) each).mono ?_
  intro first second agree
  apply Vector.ext
  intro place inside
  exact agree ⟨place, inside⟩ (List.mem_finRange _)

/-- The state of a machine as it is told in one line. -/
structure SameState (first second : Machine) : Prop where
  pc : first.pc = second.pc
  index : first.index = second.index
  delay : first.delay = second.delay
  sound : first.sound = second.sound
  depth : first.stack.length = second.stack.length
  mode : first.mode = second.mode

theorem tells_stateLine (machine : Source → Machine) :
    Tells (fun source => stateLine (machine source))
      (fun first second => SameState (machine first) (machine second)) := by
  have mode := (tells_modeText fun source => (machine source).mode).closing (ascii "\n")
  have depth := mode.number (fun source => (machine source).stack.length) (ascii "  mode=")
    fun _ => rfl
  have sound := (tells_hexByte fun source => (machine source).sound).append
    (depth.heading (ascii "  depth="))
  have delay := (tells_hexByte fun source => (machine source).delay).append
    (sound.heading (ascii "  ST="))
  have index := (tells_hexWord fun source => (machine source).index).append
    (delay.heading (ascii "  DT="))
  have pc := (tells_hexWord fun source => (machine source).pc).append
    (index.heading (ascii "  I="))
  simp only [stateLine, List.append_assoc]
  refine (pc.heading (ascii "PC=")).mono ?_
  rintro first second ⟨pc, index, delay, sound, depth, mode⟩
  exact ⟨pc, index, delay, sound, depth, mode⟩

/-- The last line shows the wait register by one digit, and it is there only for a wait. -/
theorem waitRegister_of_waitLine {first second : Machine} (waits : first.mode = .awaitingKey)
    (unhalted : first.halted = false) (one : first.waitRegister.val ≤ 15)
    (other : second.waitRegister.val ≤ 15) (same : waitLine first = waitLine second) :
    second.halted = false ∧ second.waitRegister = first.waitRegister := by
  have digits : ∀ number < 16, ∀ another < 16,
      upperDigit number = upperDigit another → number = another := by
    decide
  cases halted : second.halted with
  | true => simp [waitLine, waits, unhalted, halted] at same
  | false =>
      cases mode : second.mode with
      | running => simp [waitLine, waits, unhalted, halted, mode] at same
      | awaitingKey =>
          simp only [waitLine, waits, unhalted, halted, mode] at same
          have digit := List.append_cancel_left (List.append_cancel_right same)
          refine ⟨rfl, Fin.ext ?_⟩
          exact (digits _ (Nat.lt_succ_of_le one) _ (Nat.lt_succ_of_le other)
            (List.head_eq_of_cons_eq digit)).symm

end Report

namespace Display

/-- A pixel of a binary display is known from its light. -/
theorem pixel_eq_of_lit {first second : UInt8} (one : first = 0 ∨ first = 1)
    (other : second = 0 ∨ second = 1) (same : (first != 0) = (second != 0)) : first = second := by
  rcases one with rfl | rfl <;> rcases other with rfl | rfl
  · rfl
  · exact absurd same (by decide)
  · exact absurd same (by decide)
  · rfl

theorem eq_of_lit {first second : Display} (one : first.Binary) (other : second.Binary)
    (same : ∀ row < height, ∀ column < width, first.lit column row = second.lit column row) :
    first = second := by
  cases first with
  | mk firstPixels =>
    cases second with
    | mk secondPixels =>
      congr 1
      apply Vector.ext
      intro place inside
      have row : place / 64 < height := by
        simp only [height]
        omega
      have whole : place % 64 + width * (place / 64) = place := by
        simp only [width]
        omega
      have cell := same (place / 64) row (place % 64) (Nat.mod_lt _ (by decide))
      simp only [lit, pixel, whole, Vector.getElem?_eq_getElem inside, Option.getD_some] at cell
      exact pixel_eq_of_lit (one _ (Vector.getElem_mem inside))
        (other _ (Vector.getElem_mem inside)) cell

end Display

namespace Machine

theorem runFrames_of_not_running {machine : Machine} (resting : machine.running = false)
    (speed : Int) (count : Nat) : machine.runFrames speed count = machine := by
  induction count with
  | zero => rfl
  | succ count inductionHypothesis =>
      rw [runFrames, inductionHypothesis, runFrame_of_not_running resting]

end Machine

namespace Headless

/-- The last machines of two runs agree on what the report tells, and so do the numbers of the
frames and of the tones. -/
structure ReportedAlike (first second : Progress) : Prop where
  state : SameState first.machine second.machine
  registers : first.machine.registers = second.machine.registers
  display : first.machine.display = second.machine.display
  frames : first.scheduler.frames = second.scheduler.frames
  toneFrames : first.toneFrames = second.toneFrames
  waiting : first.machine.mode = .awaitingKey → first.machine.halted = false →
    second.machine.halted = false ∧ second.machine.waitRegister = first.machine.waitRegister

theorem tells_countLine :
    Tells (fun progress : Progress => countLine progress) (fun first second =>
      first.scheduler.frames = second.scheduler.frames ∧ first.toneFrames = second.toneFrames) := by
  have tones := (Tells.constant []).number Progress.toneFrames (ascii "\n") fun _ => rfl
  have frames := tones.number (fun progress => progress.scheduler.frames)
    (ascii "  tone frames=") fun _ => rfl
  simp only [countLine, List.append_assoc]
  refine (frames.heading (ascii "frames=")).mono ?_
  rintro first second ⟨frames, tones, _⟩
  exact ⟨frames, tones⟩

/-- The picture that is kept is the display of the last machine. -/
theorem Progress.picture_run {progress : Progress}
    (shown : progress.picture = progress.machine.display) (count : Nat) :
    (progress.run count).picture = (progress.run count).machine.display := by
  induction count generalizing progress with
  | zero => exact shown
  | succ count inductionHypothesis =>
      rw [run]
      split
      · exact shown
      · exact inductionHypothesis rfl

section Completed

variable {generator : MersenneTwister} {files : Rom.Files} {arguments : List ByteString}
  {options : Options} {startup : Machine}
  (starts : Starts generator files arguments options startup)

include starts

theorem Starts.picture_completed :
    (completed options startup).picture = (completed options startup).machine.display := by
  rw [starts.completed_eq]
  exact Progress.picture_run rfl _

theorem Starts.controlled_completed : (completed options startup).machine.Controlled := by
  rw [starts.machine_completed]
  exact starts.controlled.runFrames options.speed _

/-- A machine that starts with a wait shows a blank picture for good. -/
theorem Starts.picture_of_awaitKey {x : Register} (executes : startup.executing? = some (.awaitKey x))
    (positive : 0 < options.speed) : (completed options startup).picture = Display.blank := by
  have blank := (Machine.fresh generator).display_booted files options (by rw [starts.booted])
  rw [starts.booted] at blank
  rw [starts.picture_completed, starts.machine_completed]
  cases options.frames.toNat with
  | zero => exact blank
  | succ count =>
      have first : startup.runFrame options.speed = startup.step :=
        Machine.runFrame_of_awaitKey executes (Int.lt_toNat.mpr positive) rfl
      rw [Machine.runFrames_succ, first,
        Machine.runFrames_of_not_running (Machine.not_running_of_awaitKey executes),
        Machine.step_of_awaitKey executes]
      exact blank

end Completed

end Headless

/-- Two runs without a window that write one report have come to the same state, as far as it is
mentioned. The picture is the whole display, and a wait names its register. -/
theorem headless_report_lossless (generator other : MersenneTwister)
    (files otherFiles : Rom.Files) (arguments others : List ByteString)
    (options otherOptions : Options) (startup otherStartup : Machine)
    (starts : Headless.Starts generator files arguments options startup)
    (otherStarts : Headless.Starts other otherFiles others otherOptions otherStartup)
    (same : (Headless.run generator files arguments).output =
      (Headless.run other otherFiles others).output) :
    Headless.ReportedAlike (Headless.completed options startup)
      (Headless.completed otherOptions otherStartup) := by
  have one := starts.controlled_completed
  have another := otherStarts.controlled_completed
  rw [starts.run_eq, otherStarts.run_eq] at same
  -- The line about a wait comes last and is missing in most reports.
  have lines := (((tells_pictureText Headless.Progress.picture).append
    (tells_stateLine Headless.Progress.machine)).append
      (tells_registerLines Headless.Progress.machine)).append Headless.tells_countLine
  obtain ⟨⟨⟨⟨picture, state⟩, registers⟩, frames, toneFrames⟩, waits⟩ := lines _ _ _ _ same
  rw [starts.picture_completed, otherStarts.picture_completed] at picture
  constructor
  case state => exact state
  case registers => exact registers
  case display => exact Display.eq_of_lit one.binary another.binary picture
  case frames => exact frames
  case toneFrames => exact toneFrames
  case waiting =>
    intro mode unhalted
    exact waitRegister_of_waitLine mode unhalted one.waitRegister another.waitRegister waits

/-- Two programs of different length wait for the same register, and their runs have different
speeds. -/
theorem headless_report_lossless_of_two_waits :
    let files := Rom.Files.holding [0xFC, 0x0A]
    let otherFiles := Rom.Files.holding [0xFC, 0x0A, 0x12]
    let arguments := [ascii "r", ascii "--frames", ascii "2", ascii "--seed", ascii "7"]
    let others := [ascii "--speed", ascii "3", ascii "--frames", ascii "0x2", ascii "r"]
    let options : Options := { romPath := ascii "r", frames := 2, seed := some 7 }
    let otherOptions : Options := { romPath := ascii "r", frames := 2, speed := 3 }
    let startup := ((Machine.fresh (MersenneTwister.seeded 0)).boot files options).1
    let otherStartup := ((Machine.fresh (MersenneTwister.seeded 1)).boot otherFiles otherOptions).1
    (Headless.run (MersenneTwister.seeded 0) files arguments).output =
        (Headless.run (MersenneTwister.seeded 1) otherFiles others).output ∧
      (Headless.completed options startup).machine.waitRegister = 12 ∧
      Headless.ReportedAlike (Headless.completed options startup)
        (Headless.completed otherOptions otherStartup) := by
  intro files otherFiles arguments others options otherOptions startup otherStartup
  have starts : Headless.Starts (MersenneTwister.seeded 0) files arguments options startup :=
    ⟨by decide +kernel, Prod.ext rfl (by decide +kernel)⟩
  have otherStarts : Headless.Starts (MersenneTwister.seeded 1) otherFiles others otherOptions
      otherStartup :=
    ⟨by decide +kernel, Prod.ext rfl (by decide +kernel)⟩
  have picture : (Headless.completed options startup).picture = Display.blank :=
    starts.picture_of_awaitKey (x := 12) (by decide +kernel) (by decide)
  have otherPicture : (Headless.completed otherOptions otherStartup).picture = Display.blank :=
    otherStarts.picture_of_awaitKey (x := 12) (by decide +kernel) (by decide)
  have same : (Headless.run (MersenneTwister.seeded 0) files arguments).output =
      (Headless.run (MersenneTwister.seeded 1) otherFiles others).output := by
    rw [starts.run_eq, otherStarts.run_eq]
    simp only [Headless.Progress.outcome, Headless.printout, picture, otherPicture,
      List.append_assoc]
    -- The pictures are too long to be compared byte by byte.
    apply congrArg (pictureText Display.blank ++ ·)
    decide +kernel
  exact ⟨same, by decide +kernel,
    headless_report_lossless _ _ _ _ _ _ _ _ _ _ starts otherStarts same⟩

end Chip8
