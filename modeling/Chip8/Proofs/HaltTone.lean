import Chip8.Proofs.FrameRun
import Chip8.Proofs.SessionReset
import Mathlib.Data.List.Induction

/-!
This file holds the tone of a halted session. The report of a halt silences the speaker once, and
every frame that is processed behind it decides on the tone anew. The sound timer of a halted
machine stands still, so that a timer above zero starts the tone again.
-/

namespace Chip8

namespace Window

theorem Speaker.playing_obey (speaker : Speaker) (machine : Machine) :
    (speaker.obey (Frame.ofMachine machine).tone).playing = true ↔ 0 < machine.sound := by
  unfold Frame.ofMachine
  dsimp only
  split
  · rename_i sounding
    simp only [obey, play, sounding, iff_true]
    split
    · assumption
    · rfl
  · rename_i silent
    simp [obey, stop, silent]

namespace Session

/-- The pass writes the report of a halt. -/
def ReportsHalt (session : Session) (pass : Pass) : Prop :=
  ((session.handleAll pass.captured pass.events).runFrame pass.now).1.reportHalt.2 ≠ []

/-- The passes are carried out one after the other, and none of them restarts the machine. -/
def Unreset (session : Session) (passes : List Pass) : Prop :=
  session.Throughout (fun reached pass => reached.active = true ∧ ¬ reached.ResetPressed pass)
    passes

def Unpaused (session : Session) (passes : List Pass) : Prop :=
  session.Throughout (fun reached _ => reached.paused = false) passes

/-- A frame has been processed and no pass was paused since. -/
def Resumed (session : Session) (passes : List Pass) : Prop :=
  ∃ earlier later, passes = earlier ++ later ∧ (session.run earlier).1.Unpaused later ∧
    (session.run earlier).1.scheduler.frames < (session.run passes).1.scheduler.frames

/-- The halt of a machine with this sound timer has been reported. -/
structure Stilled (session : Session) (sound : UInt8) : Prop where
  halted : session.machine.halted = true
  timer : session.machine.sound = sound
  reported : session.haltReported = true

/-- The speaker stops in a pause, keeps its state when the clock refuses a frame, and takes a new
order when a frame is processed. -/
inductive Course (session : Session) (sound : UInt8) (next : Session) : Prop
  | paused (pausing : session.paused = true)
      (counted : next.scheduler.frames = session.scheduler.frames)
      (stopped : next.speaker.playing = false)
  | refused (going : session.paused = false)
      (counted : next.scheduler.frames = session.scheduler.frames)
      (kept : next.speaker.playing = session.speaker.playing)
  | processed (going : session.paused = false)
      (counted : next.scheduler.frames = session.scheduler.frames + 1)
      (ordered : next.speaker.playing = true ↔ 0 < sound)

variable {session : Session} {sound : UInt8}

/-- A course is about the pause, the number of frames and the speaker. -/
theorem Course.congr {other next after : Session} (course : Course session sound next)
    (paused : other.paused = session.paused)
    (frames : other.scheduler.frames = session.scheduler.frames)
    (playing : other.speaker.playing = session.speaker.playing)
    (framesAfter : after.scheduler.frames = next.scheduler.frames)
    (playingAfter : after.speaker.playing = next.speaker.playing) : Course other sound after := by
  cases course with
  | paused pausing counted stopped =>
      exact .paused (paused.trans pausing) (framesAfter.trans (counted.trans frames.symm))
        (playingAfter.trans stopped)
  | refused going counted kept =>
      exact .refused (paused.trans going) (framesAfter.trans (counted.trans frames.symm))
        (playingAfter.trans (kept.trans playing.symm))
  | processed going counted ordered =>
      refine .processed (paused.trans going) ?_ (playingAfter ▸ ordered)
      rw [framesAfter, counted, frames]

/-- Events reach neither the halt nor the timers. -/
theorem Stilled.handleAll (stilled : session.Stilled sound) (captured : Bool)
    (events : List Event) : (session.handleAll captured events).Stilled sound := by
  obtain ⟨_, _, _, handled⟩ := session.handleAll_eq captured events
  have kept := @handleAll_keeps session
    (fun machine => machine.halted = true ∧ machine.sound = sound)
    (fun machine key still => by rw [machine.keyDown_eq key]; exact still)
    (fun _ _ still => still) captured events ⟨stilled.halted, stilled.timer⟩
  constructor
  case halted => exact kept.1
  case timer => exact kept.2
  case reported =>
    rw [handled]
    exact stilled.reported

/-- A frame finds a halted machine and gives an order about its timer. -/
theorem Stilled.runFrame (stilled : session.Stilled sound) (now : Int) :
    (session.runFrame now).1.Stilled sound ∧ Course session sound (session.runFrame now).1 := by
  rw [runFrame_fst, Machine.runFrame_of_halted stilled.halted]
  split
  · rename_i pausing
    exact ⟨⟨stilled.halted, stilled.timer, stilled.reported⟩, .paused pausing rfl rfl⟩
  · rename_i going
    have going : session.paused = false := by simpa using going
    split
    · exact ⟨stilled, .refused going rfl rfl⟩
    · have ordered := session.speaker.playing_obey session.machine
      rw [stilled.timer] at ordered
      exact ⟨⟨stilled.halted, stilled.timer, stilled.reported⟩, .processed going rfl ordered⟩

theorem Stilled.beforePanel (stilled : session.Stilled sound) (pass : Pass) :
    (session.beforePanel pass).Stilled sound ∧
      Course session sound (session.beforePanel pass) := by
  obtain ⟨machine, active, panelShown, handled⟩ :=
    session.handleAll_eq pass.captured pass.events
  obtain ⟨framed, course⟩ :=
    (stilled.handleAll pass.captured pass.events).runFrame pass.now
  have unchanged : session.beforePanel pass =
      ((session.handleAll pass.captured pass.events).runFrame pass.now).1 := by
    simp [Session.beforePanel, Session.reportHalt, framed.reported]
  rw [unchanged]
  refine ⟨framed, ?_⟩
  rw [handled] at course ⊢
  exact course.congr rfl rfl rfl rfl rfl

/-- Behind the report of a halt, a pass takes one of the three courses. -/
theorem Stilled.pass {pass : Pass} (stilled : session.Stilled sound)
    (unpressed : ¬ session.ResetPressed pass) :
    (session.pass pass).1.Stilled sound ∧ Course session sound (session.pass pass).1 := by
  obtain ⟨_, _, _, _, reached⟩ := session.pass_of_unpressed unpressed
  obtain ⟨still, course⟩ := stilled.beforePanel pass
  rw [reached]
  exact ⟨⟨still.halted, still.timer, still.reported⟩, course.congr rfl rfl rfl rfl rfl⟩

/-- The report of a halt leaves a silent speaker. -/
theorem stilled_of_reportsHalt {pass : Pass} (reports : session.ReportsHalt pass)
    (unpressed : ¬ session.ResetPressed pass) :
    (session.pass pass).1.Stilled (session.pass pass).1.machine.sound ∧
      (session.pass pass).1.speaker.playing = false := by
  obtain ⟨_, _, _, _, reached⟩ := session.pass_of_unpressed unpressed
  have before : (session.beforePanel pass).machine.halted = true ∧
      (session.beforePanel pass).haltReported = true ∧
      (session.beforePanel pass).speaker.playing = false := by
    unfold ReportsHalt Session.reportHalt at reports
    unfold Session.beforePanel Session.reportHalt
    split at reports
    · rename_i halting
      rw [if_pos halting]
      exact ⟨(Bool.and_eq_true_iff.mp halting).1, rfl, rfl⟩
    · exact absurd rfl reports
  rw [reached]
  exact ⟨⟨before.1, rfl, before.2.1⟩, before.2.2⟩

theorem not_resumed_nil : ¬ session.Resumed [] := by
  rintro ⟨earlier, later, none, -, more⟩
  obtain ⟨rfl, rfl⟩ := List.append_eq_nil_iff.mp none.symm
  exact Nat.lt_irrefl _ more

/-- The last pass of a run decides whether frames are processed again. -/
theorem resumed_concat {passes : List Pass} {pass : Pass}
    (counted : (session.run passes).1.scheduler.frames ≤
      (session.run (passes ++ [pass])).1.scheduler.frames) :
    session.Resumed (passes ++ [pass]) ↔
      (session.run passes).1.paused = false ∧
        (session.Resumed passes ∨ (session.run passes).1.scheduler.frames <
          (session.run (passes ++ [pass])).1.scheduler.frames) := by
  constructor
  · rintro ⟨earlier, later, divided, unpaused, more⟩
    rcases List.eq_nil_or_concat later with rfl | ⟨between, last, rfl⟩
    · rw [List.append_nil] at divided
      rw [divided] at more
      exact absurd more (Nat.lt_irrefl _)
    · rw [List.concat_eq_append] at divided unpaused
      rw [← List.append_assoc] at divided
      obtain ⟨rfl, same⟩ := List.append_inj' divided rfl
      obtain rfl := (List.cons.inj same).1
      obtain ⟨unpaused, here⟩ := (throughout_append _).mp unpaused
      rw [← (session.run_append earlier between).1] at here
      refine ⟨here.1, ?_⟩
      rcases counted.lt_or_eq with counts | stays
      · exact .inr counts
      · exact .inl ⟨earlier, between, rfl, unpaused, stays ▸ more⟩
  · rintro ⟨going, ⟨earlier, later, rfl, unpaused, more⟩ | more⟩
    · refine ⟨earlier, later ++ [pass], List.append_assoc _ _ _, ?_, by omega⟩
      refine (throughout_append _).mpr ⟨unpaused, ?_, trivial⟩
      rwa [← (session.run_append _ _).1]
    · exact ⟨passes, [pass], rfl, ⟨going, trivial⟩, more⟩

theorem Unreset.cons {pass : Pass} {rest : List Pass} (unreset : session.Unreset (pass :: rest)) :
    session.active = true ∧ ¬ session.ResetPressed pass ∧ (session.pass pass).1.Unreset rest := by
  obtain ⟨⟨active, unpressed⟩, later⟩ := unreset
  rw [(session.run_singleton active).1] at later
  exact ⟨active, unpressed, later⟩

theorem unreset_concat {passes : List Pass} {pass : Pass} :
    session.Unreset (passes ++ [pass]) ↔
      session.Unreset passes ∧ (session.run passes).1.active = true ∧
        ¬ (session.run passes).1.ResetPressed pass := by
  rw [Unreset, throughout_append]
  simp [Throughout, Unreset]

/-- The button is not pressed where no action presses it, and a session that is active in the end
was active all along. -/
theorem unreset_of_active {passes : List Pass}
    (untouched : ∀ pass ∈ passes, PanelAction.reset ∉ pass.actions)
    (active : (session.run passes).1.active = true) : session.Unreset passes := by
  induction passes using List.reverseRecOn with
  | nil => trivial
  | append_singleton passes pass inductionHypothesis =>
      obtain ⟨earlier, last⟩ := List.forall_mem_append.mp untouched
      rw [(session.run_append passes [pass]).1] at active
      cases before : (session.run passes).1.active with
      | false =>
          rw [run_of_inactive _ before, before] at active
          exact Bool.noConfusion active
      | true =>
          exact unreset_concat.mpr ⟨inductionHypothesis earlier before, before,
            fun reset => last pass (List.mem_singleton_self pass) reset.pressed⟩

/-- A stilled session that is silent becomes loud by frames and in no other way. -/
theorem Stilled.run {passes : List Pass} (stilled : session.Stilled sound)
    (silent : session.speaker.playing = false) (unreset : session.Unreset passes) :
    (session.run passes).1.Stilled sound ∧
      ((session.run passes).1.speaker.playing = true ↔ 0 < sound ∧ session.Resumed passes) := by
  induction passes using List.reverseRecOn with
  | nil =>
      refine ⟨stilled, ?_⟩
      simp [Session.run, silent, not_resumed_nil]
  | append_singleton passes pass inductionHypothesis =>
      obtain ⟨before, active, unpressed⟩ := unreset_concat.mp unreset
      obtain ⟨reached, tone⟩ := inductionHypothesis before
      have last : (session.run (passes ++ [pass])).1 = ((session.run passes).1.pass pass).1 :=
        (session.run_append passes [pass]).1.trans (run_singleton _ active).1
      obtain ⟨still, course⟩ := reached.pass unpressed
      rw [← last] at still course
      refine ⟨still, ?_⟩
      cases course with
      | paused pausing counted stopped =>
          rw [resumed_concat counted.ge, pausing, stopped]
          simp
      | refused going counted kept =>
          rw [resumed_concat counted.ge, kept, tone, going, counted]
          simp
      | processed going counted ordered =>
          rw [resumed_concat (by omega), ordered, going, counted]
          simp

/-- The samples of the last pass tell whether the speaker plays in the end. -/
theorem heard_last_iff {passes : List Pass} (unreset : session.Unreset passes)
    {calls : List HostCall} (last : (session.run passes).2.1.getLast? = some calls)
    {samples : List Sample} (heard : HostCall.heard samples ∈ calls) {sample : Sample}
    (member : sample ∈ samples) :
    sample = .silence ↔ (session.run passes).1.speaker.playing = false := by
  rcases List.eq_nil_or_concat passes with rfl | ⟨earlier, pass, rfl⟩
  · simp [Session.run] at last
  · rw [List.concat_eq_append] at unreset last ⊢
    obtain ⟨-, active, -⟩ := unreset_concat.mp unreset
    obtain ⟨sessions, listed⟩ := session.run_append earlier [pass]
    obtain ⟨passed, called⟩ := @run_singleton (session.run earlier).1 pass active
    rw [listed, called, List.getLast?_concat] at last
    obtain rfl := Option.some.inj last
    rw [sessions, passed]
    exact heard_silence_iff _ heard member

end Session

end Window

/-- Behind the report of a halt the speaker plays exactly when the sound timer stands above zero
and a frame has been processed since, without a pause behind it. -/
theorem halted_tone_returns_with_frames (session : Window.Session) (report : Window.Pass)
    (passes : List Window.Pass) (reports : session.ReportsHalt report)
    (unreset : session.Unreset (report :: passes)) :
    let reported := (session.pass report).1
    let ended := session.run (report :: passes)
    let sounds := 0 < reported.machine.sound ∧ reported.Resumed passes
    (ended.1.speaker.playing = true ↔ sounds) ∧
      ∀ calls, ended.2.1.getLast? = some calls →
        ∀ samples, Window.HostCall.heard samples ∈ calls →
          ∀ sample ∈ samples, (sample = .silence ↔ ¬ sounds) := by
  intro reported ended sounds
  have ⟨⟨active, unpressed⟩, later⟩ := unreset
  obtain ⟨stilled, silent⟩ := Window.Session.stilled_of_reportsHalt reports unpressed
  have ended_eq : ended.1 = (reported.run passes).1 := by
    simp [ended, reported, Window.Session.run, active]
  rw [(session.run_singleton active).1] at later
  have tone : ended.1.speaker.playing = true ↔ sounds := by
    rw [ended_eq]
    exact (stilled.run silent later).2
  refine ⟨tone, ?_⟩
  intro calls last samples heard sample member
  rw [Window.Session.heard_last_iff unreset last heard member, ← Bool.not_eq_true]
  exact not_congr tone

namespace Window

/-- The device pulls four samples, and the button is left alone. -/
def samplingPass (now : Int) (pauses : Bool) : Pass where
  now := now
  files := Rom.Files.holding loneReturn
  actions := if pauses then [.togglePause] else []
  pull := some 4

/-- This session runs the lone return with an open device. -/
def soundingSession : Session :=
  Session.opened {}
    ((Machine.fresh (MersenneTwister.seeded 0)).boot (Rom.Files.holding loneReturn) {}).1
    { deviceOpen := true } 0

theorem soundingSession_reportsHalt :
    soundingSession.ReportsHalt (samplingPass 20000000 false) := by
  unfold Session.ReportsHalt
  decide +kernel

end Window

/-- A pause silences the tone that the first frame behind the report has started. -/
theorem halted_tone_ends_with_pause :
    let report := Window.samplingPass 20000000 false
    let passes := [Window.samplingPass 40000000 true, Window.samplingPass 60000000 false]
    let ended := Window.soundingSession.run (report :: passes)
    ended.1.speaker.playing = false ∧
      ∀ calls, ended.2.1.getLast? = some calls →
        ∀ samples, Window.HostCall.heard samples ∈ calls → ∀ sample ∈ samples, sample = .silence := by
  intro report passes ended
  obtain ⟨active, stopped⟩ : ended.1.active = true ∧ ended.1.speaker.playing = false := by
    decide +kernel
  have unreset : Window.soundingSession.Unreset (report :: passes) :=
    Window.Session.unreset_of_active (by decide) active
  obtain ⟨tone, heard⟩ := halted_tone_returns_with_frames Window.soundingSession report passes
    Window.soundingSession_reportsHalt unreset
  refine ⟨stopped, ?_⟩
  intro calls last samples pulled sample member
  refine (heard calls last samples pulled sample member).mpr ?_
  rw [← tone, stopped]
  decide

/-- The halt of the lone return is reported in the first pass, and the tone is heard in the second
one. -/
theorem lone_return_heard_behind_report :
    let report := Window.samplingPass 20000000 false
    let passes := [Window.samplingPass 40000000 false]
    let ended := Window.soundingSession.run (report :: passes)
    Window.soundingSession.ReportsHalt report ∧
      Window.soundingSession.Unreset (report :: passes) ∧
      ∃ calls, ended.2.1.getLast? = some calls ∧
        ∃ samples, Window.HostCall.heard samples ∈ calls ∧ ∃ sample ∈ samples, sample ≠ .silence := by
  intro report passes ended
  let pass := Window.samplingPass 40000000 false
  let reached := (Window.soundingSession.run [report]).1
  obtain ⟨still, active, opened, playing⟩ : ended.1.active = true ∧ reached.active = true ∧
      (reached.presented pass).speaker.deviceOpen = true ∧
      (reached.pass pass).1.speaker.playing = true := by
    decide +kernel
  have unreset : Window.soundingSession.Unreset (report :: passes) :=
    Window.Session.unreset_of_active (by decide) still
  have last : ended.2.1.getLast? = some (reached.pass pass).2.1 := by
    have listed := (Window.soundingSession.run_append [report] passes).2
    rw [(Window.Session.run_singleton reached active).2] at listed
    have latest := congrArg List.getLast? listed
    rwa [List.getLast?_concat] at latest
  have heard := reached.heard_mem_pass_iff.mpr ⟨4, rfl, opened, rfl⟩
  obtain ⟨sample, member⟩ : ∃ sample, sample ∈ ((reached.presented pass).speaker.pull 4).1 := by
    apply List.exists_mem_of_length_pos
    rw [Window.Speaker.length_pull]
    decide
  refine ⟨Window.soundingSession_reportsHalt, unreset, _, last, _, heard, sample, member, ?_⟩
  rw [ne_eq, reached.heard_silence_iff heard member, playing]
  decide

end Chip8
