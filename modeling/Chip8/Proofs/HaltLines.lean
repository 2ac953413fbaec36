import Chip8.Proofs.Chronicle
import Chip8.Proofs.HaltTone
import Chip8.Proofs.Presentation

/-!
This file holds the halt lines of a windowed session. A session that goes on remembers whether its
machine has halted, so that every halt is reported by one line in the pass in which it happens.
-/

namespace Chip8

open Text

/-- The machine has not halted before the change, and it has halted behind it. -/
def Change.Halts (change : Change) : Prop :=
  change.before.halted = false ∧ change.after.halted = true

instance : DecidablePred Change.Halts :=
  fun _ => inferInstanceAs (Decidable (_ ∧ _))

/-- The halts of some changes are the machines that have just halted. -/
def haltsAmong (changes : List Change) : List Machine :=
  (changes.filter fun change => change.Halts).map Change.after

theorem haltsAmong_cons (change : Change) (rest : List Change) :
    haltsAmong (change :: rest) =
      if change.Halts then change.after :: haltsAmong rest else haltsAmong rest := by
  by_cases halts : change.Halts <;> simp [haltsAmong, halts]

theorem haltsAmong_append (earlier later : List Change) :
    haltsAmong (earlier ++ later) = haltsAmong earlier ++ haltsAmong later := by
  simp [haltsAmong]

theorem haltsAmong_eq_nil {changes : List Change}
    (none : ∀ change ∈ changes, ¬ change.Halts) : haltsAmong changes = [] := by
  simpa [haltsAmong] using none

namespace Report

/-- Every halt has its own line, with its fault, its opcode and its address. -/
def haltLines (halts : List Machine) : ByteString :=
  halts.flatMap fun machine => Wording.printed (Wording.halt Char.toUpper machine)

theorem haltLines_append (earlier later : List Machine) :
    haltLines (earlier ++ later) = haltLines earlier ++ haltLines later :=
  List.flatMap_append

theorem count_hexWord (word : UInt16) : (hexWord upperDigit word).count 0x0A = 0 := by
  have visible : ∀ value < 16, upperDigit value ≠ 0x0A := by decide
  have digits (byte : UInt8) : (hexByte upperDigit byte).count 0x0A = 0 := by
    have small : byte.toNat < 256 := UInt8.toNat_lt byte
    have first := visible (byte.toNat / 16) (by omega)
    have second := visible (byte.toNat % 16) (by omega)
    simp [hexByte, first, second]
  rw [hexWord, List.count_append, digits, digits]

/-- A halt line is one line. -/
theorem count_haltLine (machine : Machine) : (haltLine upperDigit machine).count 0x0A = 1 := by
  have named : (Fault.name machine.fault).count 0x0A = 0 := by
    cases machine.fault with
    | none => decide
    | some fault => cases fault <;> decide
  simp only [haltLine, List.count_append, named, count_hexWord]
  decide

/-- The program writes the lines one by one. -/
theorem haltLines_eq (halts : List Machine) : haltLines halts = halts.flatMap (haltLine upperDigit) :=
  List.flatMap_congr fun machine _ =>
    (Wording.haltLine_eq Wording.upperDigit_spells machine).symm

theorem count_haltLines (halts : List Machine) : (haltLines halts).count 0x0A = halts.length := by
  rw [haltLines_eq]
  induction halts with
  | nil => rfl
  | cons machine rest inductionHypothesis =>
      have first := count_haltLine machine
      simp only [List.flatMap_cons, List.count_append] at inductionHypothesis ⊢
      rw [inductionHypothesis, first, List.length_cons]
      omega

end Report

namespace Machine

variable (machine : Machine)

/-- A run of steps halts at most once, with the machine that it ends with. -/
theorem haltsAmong_trail (count : Nat) :
    haltsAmong ((machine.trail count).map fun visited => ⟨visited, visited.step⟩) =
      if machine.halted = false ∧ (machine.runSteps count).halted = true then
        [machine.runSteps count]
      else [] := by
  induction count generalizing machine with
  | zero => simp [trail, runSteps, haltsAmong]
  | succ count inductionHypothesis =>
      rw [trail, runSteps]
      split
      · rename_i running
        have unhalted := (machine.running_iff.mp running).1
        rw [List.map_cons, haltsAmong_cons, inductionHypothesis]
        cases halting : machine.step.halted with
        | true =>
            have resting : machine.step.running = false := by simp [Machine.running, halting]
            simp [Change.Halts, unhalted, halting, runSteps_of_not_running resting]
        | false => simp [Change.Halts, unhalted, halting]
      · simp [haltsAmong]

/-- The timers of a frame are counted by a machine that has not halted. -/
theorem haltsAmong_frameChanges (speed : Int) :
    haltsAmong (machine.frameChanges speed) =
      if machine.halted = false ∧ (machine.runFrame speed).halted = true then
        [machine.runFrame speed]
      else [] := by
  rw [frameChanges, haltsAmong_append, haltsAmong_trail, haltsAmong_cons, runFrame]
  by_cases running : (machine.runSteps speed.toNat).running = true
  · have unhalted := ((running_iff _).mp running).1
    simp [Change.Halts, running, unhalted, tickTimers, haltsAmong]
  · have same (other : Machine) :
        ¬ (⟨other, other⟩ : Change).Halts := by simp [Change.Halts]
    simp [running, same, haltsAmong]

theorem halted_strike (stroke : Stroke) : (machine.strike stroke).halted = machine.halted := by
  rw [strike_eq]

/-- A frame never undoes a halt. -/
theorem halted_runFrame {machine : Machine} (halted : machine.halted = true) (speed : Int) :
    (machine.runFrame speed).halted = true := by
  rw [runFrame_of_halted halted]
  exact halted

/-- A boot starts a machine that has not halted, and a program that cannot be read leaves it alone. -/
theorem halted_boot {machine : Machine} (unhalted : machine.halted = false) (files : Rom.Files)
    (options : Options) : (machine.boot files options).1.halted = false := by
  have restarted (seed : Option UInt32) : (machine.restart seed).halted = false := by
    cases seed <;> rfl
  unfold boot
  split
  · exact unhalted
  · dsimp only
    split
    · exact restarted _
    · rename_i accepted
      obtain ⟨memory, loaded⟩ := load?_eq accepted
      rw [loaded]
      exact restarted _

end Machine

namespace Window.Session

variable (session : Session)

theorem halted_handleAll (captured : Bool) (events : List Event) :
    (session.handleAll captured events).machine.halted = session.machine.halted := by
  apply @handleAll_keeps session (fun machine => machine.halted = session.machine.halted)
  case pressKeeps =>
    intro machine key same
    rw [machine.keyDown_eq key]
    exact same
  case releaseKeeps => exact fun _ _ same => same
  case holds => rfl

theorem haltsAmong_eventChanges (captured : Bool) (events : List Event) :
    haltsAmong (session.eventChanges captured events) = [] := by
  apply haltsAmong_eq_nil
  intro change member
  cases session.struck_of_mem_eventChanges member with
  | kept machine => simp [Change.Halts]
  | @struck machine stroke counted => simp [Change.Halts, machine.halted_strike stroke]

theorem haltsAmong_frameChanges (pass : Pass) :
    haltsAmong (session.frameChanges pass) =
      if session.machine.halted = false ∧ (session.current pass).halted = true then
        [session.current pass]
      else [] := by
  have handled := session.halted_handleAll pass.captured pass.events
  unfold frameChanges current
  dsimp only
  split
  · simp [haltsAmong, handled]
  · rw [Machine.haltsAmong_frameChanges, handled]

theorem haltsAmong_panelChange (pass : Pass) : haltsAmong [session.panelChange pass] = [] := by
  apply haltsAmong_eq_nil
  intro change member
  obtain rfl := List.mem_singleton.mp member
  by_cases pressed : session.ResetPressed pass
  · intro ⟨unhalted, halted⟩
    have rebooted : (session.panelChange pass).after =
        ((session.current pass).boot pass.files session.options).1 :=
      (rebooted_of_pressed pressed).machine
    have still := @Machine.halted_boot (session.current pass) unhalted pass.files session.options
    rw [rebooted, still] at halted
    exact Bool.false_ne_true halted
  · simp [panelChange_of_unpressed _ pressed, Change.Halts]

/-- The halt of a pass happens in its frame. -/
theorem haltsAmong_passChanges (pass : Pass) :
    haltsAmong (session.passChanges pass) =
      if session.machine.halted = false ∧ (session.current pass).halted = true then
        [session.current pass]
      else [] := by
  rw [passChanges, haltsAmong_append, haltsAmong_append, haltsAmong_eventChanges,
    haltsAmong_frameChanges, haltsAmong_panelChange, List.nil_append, List.append_nil]

/-- The report looks at the machine behind the frame and at what was reported before the pass. -/
theorem framed_eq (pass : Pass) :
    let framed := ((session.handleAll pass.captured pass.events).runFrame pass.now).1
    framed.machine = session.current pass ∧ framed.haltReported = session.haltReported := by
  intro framed
  obtain ⟨_, _, _, handled⟩ := session.handleAll_eq pass.captured pass.events
  obtain ⟨_, _, _, taken⟩ := (session.handleAll pass.captured pass.events).runFrame_eq pass.now
  obtain ⟨_, _, reported⟩ := framed.reportHalt_eq
  constructor
  · rw [← machine_beforePanel, beforePanel, reported]
  · simp only [framed, taken, handled]

theorem report_pass (pass : Pass) :
    ((session.handleAll pass.captured pass.events).runFrame pass.now).1.reportHalt.2 =
      if session.haltReported = false ∧ (session.current pass).halted = true then
        Report.haltLine upperDigit (session.current pass)
      else [] := by
  obtain ⟨machine, haltReported⟩ := session.framed_eq pass
  simp only [reportHalt, machine, haltReported, Bool.and_eq_true, Bool.not_eq_true', and_comm]
  split <;> rfl

theorem haltReported_beforePanel (pass : Pass) :
    (session.beforePanel pass).haltReported =
      ((session.current pass).halted || session.haltReported) := by
  obtain ⟨machine, haltReported⟩ := session.framed_eq pass
  simp only [beforePanel, reportHalt, machine, haltReported]
  cases (session.current pass).halted <;> cases reported : session.haltReported <;>
    simp [haltReported, reported]

/-- No stage before the panel undoes a halt. -/
theorem halted_current {pass : Pass} (halted : session.machine.halted = true) :
    (session.current pass).halted = true := by
  rw [← session.halted_handleAll pass.captured pass.events] at halted
  unfold current
  dsimp only
  split
  · exact halted
  · exact Machine.halted_runFrame halted _

/-- A session that goes on remembers whether its machine has halted. -/
def Remembers (session : Session) : Prop :=
  session.active = true → session.haltReported = session.machine.halted

/-- Behind the halt lines stands nothing, or the message of a boot that has ended the session. -/
def Complains (session : Session) (complaint : ByteString) : Prop :=
  complaint = [] ∨ session.active = false ∧
    ∃ error : BootError, complaint = error.message session.options.romPath

/-- The reports of the passes are the lines of their halts, in the order of the halts. -/
def ReportsHalts (session : Session) (passes : List Pass) : Prop :=
  ∃ complaint,
    (session.run passes).2.2 =
        Report.haltLines (haltsAmong (session.chronicle passes)) ++ complaint ∧
      (session.run passes).1.Complains complaint

variable {session}

theorem Remembers.pass (remembers : session.Remembers) (active : session.active = true)
    (pass : Pass) : (session.pass pass).1.Remembers := by
  intro goesOn
  by_cases pressed : session.ResetPressed pass
  · have rebooted := rebooted_of_pressed pressed
    have success : ((session.current pass).boot pass.files session.options).2 = none := by
      rw [rebooted.active, Bool.and_eq_true, Option.isNone_iff_eq_none] at goesOn
      exact goesOn.2
    rw [rebooted.unreported, rebooted.machine, Machine.halted_booted _ _ _ success]
  · obtain ⟨_, _, _, _, passed⟩ := session.pass_of_unpressed pressed
    simp only [passed, haltReported_beforePanel, machine_beforePanel, remembers active]
    cases halted : session.machine.halted with
    | false => exact Bool.or_false _
    | true => simp [session.halted_current halted]

theorem Remembers.run (remembers : session.Remembers) (passes : List Pass) :
    (session.run passes).1.Remembers := by
  induction passes generalizing session with
  | nil => exact remembers
  | cons pass rest inductionHypothesis =>
      simp only [Session.run]
      split
      · rename_i active
        exact inductionHypothesis (remembers.pass active pass)
      · exact remembers

/-- A halt is new exactly when it has not been reported. -/
theorem Remembers.report_pass (remembers : session.Remembers) (active : session.active = true)
    (pass : Pass) :
    ((session.handleAll pass.captured pass.events).runFrame pass.now).1.reportHalt.2 =
      Report.haltLines (haltsAmong (session.passChanges pass)) := by
  rw [Session.report_pass, haltsAmong_passChanges, remembers active, Report.haltLines_eq]
  split
  · simp
  · rfl

theorem Remembers.errors_pass (remembers : session.Remembers) (active : session.active = true)
    (pass : Pass) :
    ∃ complaint,
      (session.pass pass).2.2 =
          Report.haltLines (haltsAmong (session.passChanges pass)) ++ complaint ∧
        (session.pass pass).1.Complains complaint := by
  have report := remembers.report_pass active pass
  by_cases pressed : session.ResetPressed pass
  · have rebooted := rebooted_of_pressed pressed
    refine ⟨_, rebooted.reports.trans (by rw [report]), ?_⟩
    cases booted : ((session.current pass).boot pass.files session.options).2 with
    | none => exact .inl rfl
    | some error =>
        right
        constructor
        · simp [rebooted.active, booted]
        · rw [options_pass]
          exact ⟨error, rfl⟩
  · refine ⟨[], ?_, .inl rfl⟩
    rw [errors_pass_of_unpressed _ pressed, report, List.append_nil]

/-- A complaint ends the run, so that every pass before the last one writes nothing but halts. -/
theorem Remembers.reportsHalts (remembers : session.Remembers) (passes : List Pass) :
    session.ReportsHalts passes := by
  induction passes generalizing session with
  | nil => exact ⟨[], rfl, .inl rfl⟩
  | cons pass rest inductionHypothesis =>
      cases active : session.active with
      | false =>
          refine ⟨[], ?_, .inl rfl⟩
          rw [run_of_inactive _ active, chronicle_of_inactive _ active]
          rfl
      | true =>
          obtain ⟨complaint, errors, complains⟩ := remembers.errors_pass active pass
          obtain ⟨later, others, ends⟩ := inductionHypothesis (remembers.pass active pass)
          simp only [ReportsHalts, Session.run, chronicle, active, if_true, haltsAmong_append,
            Report.haltLines_append, errors]
          rcases complains with rfl | complains
          · exact ⟨later, by rw [others, List.append_nil, List.append_assoc], ends⟩
          · -- The session has ended, so that nothing is written behind the complaint.
            rw [run_of_inactive _ complains.1, chronicle_of_inactive _ complains.1]
            exact ⟨complaint, by simp [haltsAmong, Report.haltLines], .inr complains⟩

/-- A machine that has halted gives nothing to report until it is booted again. -/
theorem Remembers.silent {passes : List Pass} (remembers : session.Remembers)
    (halted : session.machine.halted = true) (unreset : session.Unreset passes) :
    (session.run passes).2.2 = [] := by
  induction passes generalizing session with
  | nil => rfl
  | cons pass rest inductionHypothesis =>
      obtain ⟨active, unpressed, later⟩ := unreset.cons
      have still : (session.pass pass).1.machine.halted = true := by
        obtain ⟨_, _, _, _, passed⟩ := session.pass_of_unpressed unpressed
        rw [passed]
        exact session.machine_beforePanel pass ▸ session.halted_current halted
      have quiet : (session.pass pass).2.2 = [] := by
        rw [errors_pass_of_unpressed _ unpressed, remembers.report_pass active,
          haltsAmong_passChanges, halted]
        rfl
      simp only [Session.run, active, if_true, quiet, List.nil_append]
      exact inductionHypothesis (remembers.pass active pass) still later

end Window.Session

namespace Window

/-- A host may have no audio device. -/
def deviceWarnings (host : Host) : ByteString :=
  let (speaker, _, warning) := ({} : Speaker).openDevice host
  warning ++ silenceWarning speaker

/-- A launch on a host that is prepared writes what its passes write. -/
theorem launch_of_prepared {generator : MersenneTwister} {files : Rom.Files}
    {arguments : List ByteString} {options : Options} {startup : Machine}
    (starts : Headless.Starts generator files arguments options startup) {host : Host}
    (prepared : (prepare host (preparations host options.scale)).2 = none) (startTime : Int)
    (passes : List Pass) :
    let outcome := launch generator files arguments host startTime passes
    outcome.status = 0 ∧ outcome.errors =
      deviceWarnings host ++ ((openedSession host startTime options startup).run passes).2.2 := by
  intro outcome
  obtain ⟨calls, ends⟩ : ∃ calls, prepare host (preparations host options.scale) = (calls, none) :=
    ⟨_, Prod.ext rfl prepared⟩
  simp only [outcome, launch, starts.accepted, starts.booted, ends, true_and]
  rfl

end Window

open Window

/-- Past its startup, a launch writes one line for every halt of its machine, in the pass of that
halt and with that halt's fault, opcode and address. A machine that has halted adds no line until the
panel boots it again. -/
theorem every_halt_reported_once (generator : MersenneTwister) (files : Rom.Files)
    (arguments : List ByteString) (options : Options) (startup : Machine)
    (starts : Headless.Starts generator files arguments options startup) (host : Host)
    (prepared : (prepare host (preparations host options.scale)).2 = none) (startTime : Int)
    (passes : List Pass) :
    let outcome := launch generator files arguments host startTime passes
    let opened := openedSession host startTime options startup
    let lines := Report.haltLines (haltsAmong (opened.chronicle passes))
    outcome.status = 0 ∧
      (∃ complaint, outcome.errors = deviceWarnings host ++ lines ++ complaint ∧
        (opened.run passes).1.Complains complaint) ∧
      lines.count 0x0A = (haltsAmong (opened.chronicle passes)).length ∧
      ∀ earlier stretch,
        let reached := (opened.run earlier).1
        reached.ReportsHalts stretch ∧
          (reached.machine.halted = true → reached.Unreset stretch →
            (reached.run stretch).2.2 = []) := by
  intro outcome opened lines
  have remembers : opened.Remembers := fun _ => starts.unhalted.symm
  obtain ⟨status, errors⟩ := launch_of_prepared starts prepared startTime passes
  obtain ⟨complaint, written, complains⟩ := remembers.reportsHalts passes
  refine ⟨status, ⟨complaint, ?_, complains⟩, Report.count_haltLines _, ?_⟩
  · rw [List.append_assoc]
    exact errors.trans (congrArg (deviceWarnings host ++ ·) written)
  · intro earlier stretch reached
    have still : reached.Remembers := remembers.run earlier
    exact ⟨still.reportsHalts stretch, fun halted unreset => still.silent halted unreset⟩

/-- The lone return halts the first pass of a session. The panel boots an unknown opcode, which halts
the next pass. The last frame finds a halted machine. -/
theorem every_halt_reported_once_around_reset :
    let files := Rom.Files.holding loneReturn
    let others := Rom.Files.holding [0xFA, 0xBC]
    let options : Options := { romPath := ascii "r" }
    let startup := ((Machine.fresh (MersenneTwister.seeded 0)).boot files options).1
    let passes : List Pass :=
      [{ now := 20000000, files := others, actions := [.reset] },
       { now := 40000000, files := others }, { now := 60000000, files := others }]
    let outcome := launch (MersenneTwister.seeded 0) files [ascii "r"] {} 0 passes
    outcome.errors =
        ascii "[chip8] halted: stack underflow (opcode 00EE at 0204)\n" ++
          ascii "[chip8] halted: unknown opcode (opcode FABC at 0200)\n" ∧
      (haltsAmong ((openedSession {} 0 options startup).chronicle passes)).map Machine.fault =
        [some .stackUnderflow, some .unknownOpcode] := by
  intro files others options startup passes outcome
  have starts : Headless.Starts (MersenneTwister.seeded 0) files [ascii "r"] options startup :=
    ⟨by decide +kernel, Prod.ext rfl (by decide +kernel)⟩
  obtain ⟨-, ⟨complaint, errors, complains⟩, -, -⟩ :=
    every_halt_reported_once (MersenneTwister.seeded 0) files [ascii "r"] options startup starts {}
      (by decide) 0 passes
  let halts := haltsAmong ((openedSession {} 0 options startup).chronicle passes)
  have goesOn : ((openedSession {} 0 options startup).run passes).1.active = true := by
    decide +kernel
  have none : complaint = [] := by
    rcases complains with none | ⟨ended, -⟩
    · exact none
    · exact Bool.noConfusion (goesOn.symm.trans ended)
  have lines : outcome.errors = Report.haltLines halts := by
    have unwarned : deviceWarnings {} = [] := by decide
    exact errors.trans (by rw [unwarned, none, List.append_nil, List.nil_append])
  have faults : halts.map Machine.fault = [some .stackUnderflow, some .unknownOpcode] := by
    decide +kernel
  exact ⟨lines.trans (by decide +kernel), faults⟩

end Chip8
