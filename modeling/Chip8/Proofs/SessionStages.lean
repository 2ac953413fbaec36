import Chip8.Window.Session

/-!
This file holds the stages of a pass of a windowed session. Each stage is described by the fields
that it reaches, and the sound that is heard in a pass comes from its last stage.
-/

namespace Chip8.Window

namespace Speaker

variable (speaker : Speaker)

/-- A pull moves the phase and nothing else. -/
theorem pull_eq (count : Nat) :
    ∃ phase, (speaker.pull count).2 = { speaker with phase := phase } := by
  induction count generalizing speaker with
  | zero => exact ⟨_, rfl⟩
  | succ count inductionHypothesis =>
      obtain ⟨phase, pulled⟩ := inductionHypothesis speaker.nextSample.2
      refine ⟨phase, ?_⟩
      rw [pull_succ, pulled, nextSample]
      split <;> rfl

theorem length_pull (count : Nat) : (speaker.pull count).1.length = count := by
  induction count generalizing speaker with
  | zero => rfl
  | succ count inductionHypothesis =>
      rw [pull_succ, List.length_cons, inductionHypothesis]

theorem nextSample_silence_iff : speaker.nextSample.1 = .silence ↔ speaker.playing = false := by
  unfold nextSample waveform
  cases speaker.playing with
  | false => simp
  | true =>
      simp only [if_true]
      split <;> simp

/-- All samples of a pull are silent or none is. -/
theorem pull_silence_iff {count : Nat} {sample : Sample}
    (pulled : sample ∈ (speaker.pull count).1) :
    sample = .silence ↔ speaker.playing = false := by
  induction count generalizing speaker with
  | zero => simp [pull_zero] at pulled
  | succ count inductionHypothesis =>
      rw [pull_succ, List.mem_cons] at pulled
      rcases pulled with rfl | later
      · exact speaker.nextSample_silence_iff
      · have kept : speaker.nextSample.2.playing = speaker.playing := by
          rw [nextSample]
          split <;> rfl
        rw [← kept]
        exact inductionHypothesis speaker.nextSample.2 later

end Speaker

namespace Session

variable (session : Session)

/-- Events reach the machine, and they may end the session or turn the panel. -/
theorem handleAll_eq (captured : Bool) (events : List Event) :
    ∃ machine active panelShown, session.handleAll captured events =
      { session with machine := machine, active := active, panelShown := panelShown } := by
  induction events generalizing session with
  | nil => exact ⟨_, _, _, rfl⟩
  | cons event rest inductionHypothesis =>
      obtain ⟨machine, active, panelShown, handled⟩ :=
        inductionHypothesis (session.handle captured event)
      refine ⟨machine, active, panelShown, handled.trans ?_⟩
      unfold handle
      repeat' split
      all_goals rfl

/-- Events reach the machine by presses and releases. -/
theorem handleAll_keeps {Holds : Machine → Prop}
    (pressKeeps : ∀ machine key, Holds machine → Holds (machine.keyDown key))
    (releaseKeeps : ∀ machine key, Holds machine → Holds (machine.keyUp key))
    (captured : Bool) (events : List Event) (holds : Holds session.machine) :
    Holds (session.handleAll captured events).machine := by
  induction events generalizing session with
  | nil => exact holds
  | cons event rest inductionHypothesis =>
      apply inductionHypothesis (session.handle captured event)
      unfold handle
      repeat' split
      all_goals first
        | exact holds
        | exact pressKeeps _ _ holds
        | exact releaseKeeps _ _ holds

/-- The session is paused, or the clock refuses a frame, or a frame is processed. -/
theorem runFrame_fst (now : Int) :
    (session.runFrame now).1 =
      if session.paused then { session with speaker := session.speaker.stop }
      else if now - session.scheduler.last < session.scheduler.interval then session
      else
        let framed := session.machine.runFrame session.scheduler.speed
        { session with
          scheduler :=
            { session.scheduler with last := now, frames := session.scheduler.frames + 1 }
          machine := framed
          speaker := session.speaker.obey (Frame.ofMachine framed).tone } := by
  simp only [runFrame, Scheduler.tick]
  split
  · rfl
  · by_cases early : now - session.scheduler.last < session.scheduler.interval
    · simp only [if_pos early]
    · simp only [if_neg early]
      rfl

/-- A frame reaches the machine, the scheduler and the speaker. -/
theorem runFrame_eq (now : Int) :
    ∃ machine scheduler speaker, (session.runFrame now).1 =
      { session with machine := machine, scheduler := scheduler, speaker := speaker } := by
  rw [runFrame_fst]
  split
  · exact ⟨_, _, _, rfl⟩
  · split
    · exact ⟨_, _, _, rfl⟩
    · exact ⟨_, _, _, rfl⟩

/-- The display is drawn once in each of the three cases, as it stands then. -/
theorem runFrame_snd (now : Int) :
    (session.runFrame now).2 = session.screenCalls (session.runFrame now).1.machine.display := by
  simp only [runFrame, Scheduler.tick]
  split
  · rfl
  · by_cases early : now - session.scheduler.last < session.scheduler.interval
    · simp only [if_pos early]
    · simp only [if_neg early]
      rfl

/-- A report reaches the speaker and is remembered. -/
theorem reportHalt_eq :
    ∃ speaker haltReported, session.reportHalt.1 =
      { session with speaker := speaker, haltReported := haltReported } := by
  unfold reportHalt
  split
  · exact ⟨_, _, rfl⟩
  · exact ⟨_, _, rfl⟩

/-- The widgets reach the speed, and they may pause the session or hide the panel. -/
theorem adjustAll_eq (actions : List PanelAction) :
    ∃ speed paused panelShown, actions.foldl adjust session =
      { session with
        scheduler := { session.scheduler with speed := speed }, paused := paused,
        panelShown := panelShown } := by
  induction actions generalizing session with
  | nil => exact ⟨_, _, _, rfl⟩
  | cons action rest inductionHypothesis =>
      obtain ⟨speed, paused, panelShown, adjusted⟩ :=
        inductionHypothesis (session.adjust action)
      refine ⟨speed, paused, panelShown, adjusted.trans ?_⟩
      cases action <;> rfl

/-- A panel without a press of its button does no more than its other widgets, and it reports
nothing. -/
theorem showPanel_of_unpressed {pass : Pass}
    (unpressed : ¬ (session.panelShown = true ∧ PanelAction.reset ∈ pass.actions)) :
    (session.showPanel pass).1 =
        (if session.panelShown then pass.actions.foldl adjust session else session) ∧
      (session.showPanel pass).2.2 = [] := by
  unfold showPanel
  split
  · rename_i shown
    have absent : ¬ pass.actions.contains .reset = true := by
      rw [List.contains_iff_mem]
      exact fun pressed => unpressed ⟨shown, pressed⟩
    simp only [if_neg absent, and_self]
  · exact ⟨rfl, rfl⟩

theorem playSamples_eq (pull : Option Nat) :
    ∃ phase, (session.playSamples pull).1 =
      { session with speaker := { session.speaker with phase := phase } } := by
  unfold playSamples
  split
  · exact ⟨_, rfl⟩
  · rename_i count
    split
    · obtain ⟨phase, pulled⟩ := session.speaker.pull_eq count
      exact ⟨phase, congrArg (fun speaker => { session with speaker := speaker }) pulled⟩
    · exact ⟨_, rfl⟩

/-- The panel sees the session after its events, its frame and its report. -/
def beforePanel (pass : Pass) : Session :=
  ((session.handleAll pass.captured pass.events).runFrame pass.now).1.reportHalt.1

theorem pass_fst (pass : Pass) :
    (session.pass pass).1 =
      (((session.beforePanel pass).showPanel pass).1.playSamples pass.pull).1 := rfl

theorem pass_errors (pass : Pass) :
    (session.pass pass).2.2 =
      ((session.handleAll pass.captured pass.events).runFrame pass.now).1.reportHalt.2 ++
        ((session.beforePanel pass).showPanel pass).2.2 := rfl

/-- Only the events can end the session before the panel is shown, or turn the panel. -/
theorem beforePanel_eq (pass : Pass) :
    ∃ machine scheduler speaker haltReported, session.beforePanel pass =
      { session.handleAll pass.captured pass.events with
        machine := machine, scheduler := scheduler, speaker := speaker,
        haltReported := haltReported } := by
  obtain ⟨machine, scheduler, _, framed⟩ :=
    (session.handleAll pass.captured pass.events).runFrame_eq pass.now
  obtain ⟨speaker, haltReported, reported⟩ :=
    ((session.handleAll pass.captured pass.events).runFrame pass.now).1.reportHalt_eq
  refine ⟨machine, scheduler, speaker, haltReported, ?_⟩
  rw [beforePanel, reported, framed]

/-- The machine of a pass stands behind its events, and behind its frame if one is processed. -/
def current (pass : Pass) : Machine :=
  let handled := session.handleAll pass.captured pass.events
  if session.paused = true ∨ pass.now < session.scheduler.last + session.scheduler.interval then
    handled.machine
  else handled.machine.runFrame session.scheduler.speed

/-- The pause and the clock decide on the machine and on the scheduler alike. -/
theorem frame_beforePanel (pass : Pass) :
    let handled := (session.handleAll pass.captured pass.events).machine
    ((session.beforePanel pass).machine, (session.beforePanel pass).scheduler) =
      if session.paused = true ∨ pass.now < session.scheduler.last + session.scheduler.interval then
        (handled, session.scheduler)
      else
        (handled.runFrame session.scheduler.speed,
          { session.scheduler with
            last := pass.now, frames := session.scheduler.frames + 1 }) := by
  intro handled
  obtain ⟨_, _, _, reached⟩ := session.handleAll_eq pass.captured pass.events
  obtain ⟨_, _, reported⟩ :=
    ((session.handleAll pass.captured pass.events).runFrame pass.now).1.reportHalt_eq
  rw [beforePanel, reported, runFrame_fst]
  simp only [handled, reached]
  by_cases pausing : session.paused = true
  · simp only [pausing, if_true, true_or]
  · by_cases early : pass.now - session.scheduler.last < session.scheduler.interval
    · simp only [if_neg pausing, if_pos early]
      rw [if_pos (.inr (by omega))]
    · simp only [if_neg pausing, if_neg early]
      rw [if_neg (not_or.mpr ⟨pausing, by omega⟩)]

theorem machine_beforePanel (pass : Pass) :
    (session.beforePanel pass).machine = session.current pass := by
  have framed := congrArg Prod.fst (session.frame_beforePanel pass)
  rwa [apply_ite Prod.fst] at framed

theorem scheduler_beforePanel (pass : Pass) :
    (session.beforePanel pass).scheduler =
      if session.paused = true ∨ pass.now < session.scheduler.last + session.scheduler.interval then
        session.scheduler
      else
        { session.scheduler with last := pass.now, frames := session.scheduler.frames + 1 } := by
  have framed := congrArg Prod.snd (session.frame_beforePanel pass)
  rwa [apply_ite Prod.snd] at framed

/-- The picture is presented when the panel has been shown. -/
def presented (pass : Pass) : Session :=
  ((session.beforePanel pass).showPanel pass).1

/-- The display is drawn before the panel, and the device pulls behind the presentation. -/
theorem pass_calls (pass : Pass) :
    (session.pass pass).2.1 =
      session.screenCalls (session.beforePanel pass).machine.display ++
        ((session.beforePanel pass).showPanel pass).2.1 ++ [.drawPanel, .present] ++
        ((session.presented pass).playSamples pass.pull).2 := by
  obtain ⟨_, _, _, handled⟩ := session.handleAll_eq pass.captured pass.events
  obtain ⟨_, _, reported⟩ :=
    ((session.handleAll pass.captured pass.events).runFrame pass.now).1.reportHalt_eq
  have drawing := (session.handleAll pass.captured pass.events).runFrame_snd pass.now
  have scaled (picture : Display) :
      (session.handleAll pass.captured pass.events).screenCalls picture =
        session.screenCalls picture := by
    rw [handled]
    rfl
  have shown : (session.beforePanel pass).machine =
      ((session.handleAll pass.captured pass.events).runFrame pass.now).1.machine := by
    rw [beforePanel, reported]
  rw [shown, ← scaled, ← drawing]
  rfl

theorem playing_pass (pass : Pass) :
    (session.pass pass).1.speaker.playing = (session.presented pass).speaker.playing := by
  obtain ⟨phase, played⟩ := (session.presented pass).playSamples_eq pass.pull
  exact congrArg (fun reached => reached.speaker.playing) played

/-- The samples of a pull are those of the speaker as it is when the picture is presented. -/
theorem heard_mem_pass_iff {pass : Pass} {samples : List Sample} :
    HostCall.heard samples ∈ (session.pass pass).2.1 ↔
      ∃ count, pass.pull = some count ∧ (session.presented pass).speaker.deviceOpen = true ∧
        ((session.presented pass).speaker.pull count).1 = samples := by
  have drawing : HostCall.heard samples ∉
      session.screenCalls (session.beforePanel pass).machine.display := by
    simp [screenCalls]
  have panel : HostCall.heard samples ∉ ((session.beforePanel pass).showPanel pass).2.1 := by
    unfold showPanel
    split
    · simp only [widgetCalls, statusCalls]
      split <;> simp
    · simp
  have last : HostCall.heard samples ∈ (session.pass pass).2.1 ↔
      HostCall.heard samples ∈ ((session.presented pass).playSamples pass.pull).2 := by
    simp [pass_calls, drawing, panel]
  rw [last]
  cases pass.pull with
  | none => simp [playSamples]
  | some count =>
      cases opened : (session.presented pass).speaker.deviceOpen <;>
        simp [playSamples, opened, eq_comm]

/-- What is heard in a pass is silent exactly when the speaker does not play in the end. -/
theorem heard_silence_iff {pass : Pass} {samples : List Sample} {sample : Sample}
    (heard : HostCall.heard samples ∈ (session.pass pass).2.1) (member : sample ∈ samples) :
    sample = .silence ↔ (session.pass pass).1.speaker.playing = false := by
  obtain ⟨count, -, -, rfl⟩ := session.heard_mem_pass_iff.mp heard
  rw [playing_pass]
  exact (session.presented pass).speaker.pull_silence_iff member

/-- A session that is no longer active ends a run. -/
theorem run_of_inactive (inactive : session.active = false) (passes : List Pass) :
    session.run passes = (session, [], []) := by
  cases passes with
  | nil => rfl
  | cons first rest => simp [run, inactive]

theorem run_append (first second : List Pass) :
    (session.run (first ++ second)).1 = ((session.run first).1.run second).1 ∧
      (session.run (first ++ second)).2.1 =
        (session.run first).2.1 ++ ((session.run first).1.run second).2.1 := by
  induction first generalizing session with
  | nil => exact ⟨rfl, rfl⟩
  | cons pass rest inductionHypothesis =>
      cases active : session.active with
      | true =>
          obtain ⟨sessions, calls⟩ := inductionHypothesis (session.pass pass).1
          simp [run, active, sessions, calls]
      | false => simp [run_of_inactive _ active]

theorem run_singleton {pass : Pass} (active : session.active = true) :
    (session.run [pass]).1 = (session.pass pass).1 ∧
      (session.run [pass]).2.1 = [(session.pass pass).2.1] := by
  simp [run, active]

/-- Every pass of a run finds the session as it is asked for. -/
def Throughout (Holds : Session → Pass → Prop) (session : Session) : List Pass → Prop
  | [] => True
  | pass :: rest => Holds session pass ∧ Throughout Holds (session.run [pass]).1 rest

theorem throughout_append {Holds : Session → Pass → Prop} {first second : List Pass} :
    session.Throughout Holds (first ++ second) ↔
      session.Throughout Holds first ∧ (session.run first).1.Throughout Holds second := by
  induction first generalizing session with
  | nil => simp [Throughout, run]
  | cons pass rest inductionHypothesis =>
      have joined := (session.run_append [pass] rest).1
      rw [List.singleton_append] at joined
      rw [List.cons_append, Throughout, Throughout, inductionHypothesis, joined, and_assoc]

end Session

end Chip8.Window
