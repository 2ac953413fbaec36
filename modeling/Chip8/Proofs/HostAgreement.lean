import Chip8.Proofs.HeadlessRun
import Chip8.Proofs.SessionStages
import Chip8.Window.Launch

/-!
This file holds the agreement of the two hosts. A session that is left alone follows the frames of
the run without a window, whatever its clock shows and whether or not the machine has halted.
-/

namespace Chip8

open Text

namespace Window

/-- The event neither presses nor releases a key of the keypad. -/
def Event.Keyless : Event → Prop
  | .keyDown scancode => key? scancode = none
  | .keyUp scancode => key? scancode = none
  | _ => True

/-- A pass is quiet when no key reaches the keypad and no widget is moved. The panel may be shown,
hidden and closed, and the session may be ended. -/
structure Pass.Quiet (pass : Pass) : Prop where
  keyless : ∀ event ∈ pass.events, event.Keyless
  untouched : ∀ action ∈ pass.actions, action = .close

/-- A session follows a run when its machine has come to where the run is after as many frames. -/
structure Session.Follows (session : Session) (startup : Machine) (speed : Int) : Prop where
  unpaused : session.paused = false
  paced : session.scheduler.speed = speed
  machine : session.machine = startup.runFrames speed session.scheduler.frames

namespace Session.Follows

variable {session : Session} {startup : Machine} {speed : Int}

/-- The panel, the speaker and the reports have no part in it. -/
theorem elsewhere (follows : session.Follows startup speed) (speaker : Speaker)
    (active panelShown haltReported : Bool) :
    ({ session with
        speaker := speaker, active := active, panelShown := panelShown,
        haltReported := haltReported }).Follows startup speed :=
  ⟨follows.unpaused, follows.paced, follows.machine⟩

theorem handle {event : Event} (keyless : event.Keyless) (captured : Bool)
    (follows : session.Follows startup speed) :
    (session.handle captured event).Follows startup speed := by
  cases event with
  | keyDown scancode =>
      simp only [Session.handle, show key? scancode = none from keyless, ite_self]
      split
      · exact follows.elsewhere _ _ _ _
      · split
        · exact follows.elsewhere _ _ _ _
        · exact follows
  | keyUp scancode =>
      simp only [Session.handle, show key? scancode = none from keyless]
      exact follows
  | keyRepeat scancode => exact follows
  | quit => exact follows.elsewhere _ _ _ _
  | other => exact follows

theorem handleAll {events : List Event} (keyless : ∀ event ∈ events, event.Keyless)
    (captured : Bool) (follows : session.Follows startup speed) :
    (session.handleAll captured events).Follows startup speed := by
  induction events generalizing session with
  | nil => exact follows
  | cons event rest inductionHypothesis =>
      obtain ⟨first, others⟩ := List.forall_mem_cons.mp keyless
      exact inductionHypothesis others (follows.handle first captured)

/-- A frame that is refused changes nothing, and a frame that is processed is the next one of the
run. Late frames are not made up for. -/
theorem runFrame (now : Int) (follows : session.Follows startup speed) :
    (session.runFrame now).1.Follows startup speed := by
  have unpaused : ¬ session.paused = true := by simp [follows.unpaused]
  rw [runFrame_fst, if_neg unpaused]
  split
  · exact follows
  · constructor
    case unpaused => exact follows.unpaused
    case paced => exact follows.paced
    case machine =>
      dsimp only
      rw [follows.machine, follows.paced]
      rfl

theorem reportHalt (follows : session.Follows startup speed) :
    session.reportHalt.1.Follows startup speed := by
  obtain ⟨speaker, haltReported, reported⟩ := session.reportHalt_eq
  rw [reported]
  exact follows.elsewhere _ _ _ _

theorem beforePanel {pass : Pass} (quiet : pass.Quiet) (follows : session.Follows startup speed) :
    (session.beforePanel pass).Follows startup speed :=
  ((follows.handleAll quiet.keyless pass.captured).runFrame pass.now).reportHalt

theorem adjustAll {actions : List PanelAction} (untouched : ∀ action ∈ actions, action = .close)
    (follows : session.Follows startup speed) :
    (actions.foldl adjust session).Follows startup speed := by
  induction actions generalizing session with
  | nil => exact follows
  | cons action rest inductionHypothesis =>
      obtain ⟨rfl, others⟩ := List.forall_mem_cons.mp untouched
      exact inductionHypothesis others (follows.elsewhere _ _ _ _)

theorem showPanel {pass : Pass} (quiet : pass.Quiet) (follows : session.Follows startup speed) :
    (session.showPanel pass).1.Follows startup speed := by
  have unpressed : ¬ (session.panelShown = true ∧ PanelAction.reset ∈ pass.actions) :=
    fun pressed => PanelAction.noConfusion (quiet.untouched _ pressed.2)
  rw [(showPanel_of_unpressed _ unpressed).1]
  split
  · exact follows.adjustAll quiet.untouched
  · exact follows

theorem pass {pass : Pass} (quiet : pass.Quiet) (follows : session.Follows startup speed) :
    (session.pass pass).1.Follows startup speed := by
  obtain ⟨phase, played⟩ := ((session.beforePanel pass).showPanel pass).1.playSamples_eq pass.pull
  rw [pass_fst, played]
  exact ((follows.beforePanel quiet).showPanel quiet).elsewhere _ _ _ _

/-- A quiet run follows to its end. -/
theorem run {passes : List Pass} (quiet : ∀ pass ∈ passes, pass.Quiet)
    (follows : session.Follows startup speed) :
    (session.run passes).1.Follows startup speed := by
  induction passes generalizing session with
  | nil => exact follows
  | cons first rest inductionHypothesis =>
      obtain ⟨here, later⟩ := List.forall_mem_cons.mp quiet
      rw [Session.run]
      split
      · exact inductionHypothesis later (follows.pass here)
      · exact follows

end Session.Follows

end Window

/-- A session that started with a seed and was left alone has the machine with which the run
without a window ends, if that run is given as many frames as the session has processed. -/
theorem hosts_run_same_machine (generator other : MersenneTwister) (files : Rom.Files)
    (arguments others : List ByteString) (options : Options) (startup : Machine)
    (starts : Headless.Starts generator files arguments options startup)
    (seeded : options.seed.isSome = true) (speaker : Window.Speaker) (startTime : Int)
    (passes : List Window.Pass) (quiet : ∀ pass ∈ passes, pass.Quiet) (scale : Int) :
    let session := ((Window.Session.opened options startup speaker startTime).run passes).1
    let bounded := { options with scale := scale, frames := session.scheduler.frames }
    Options.parse {} others = (bounded, none) →
      ∃ machine, Headless.Starts other files others bounded machine ∧
        Headless.run other files others = (Headless.completed bounded machine).outcome ∧
        (Headless.completed bounded machine).machine = session.machine := by
  intro session bounded read
  have follows : session.Follows startup options.speed :=
    Window.Session.Follows.run quiet ⟨rfl, rfl, rfl⟩
  have again : Headless.Starts other files others bounded startup :=
    ⟨read, Machine.boot_of_seeded starts.booted seeded other⟩
  refine ⟨startup, again, again.run_eq, ?_⟩
  rw [follows.machine]
  exact again.machine_completed

namespace Window

/-- The second pass comes too early, and the last one finds a halted machine. -/
def quietPasses : List Pass :=
  [{ now := 20000000, files := Rom.Files.holding loneReturn, events := [.keyDown panelScancode] },
   { now := 30000000, files := Rom.Files.holding loneReturn, events := [.other] },
   { now := 40000000, files := Rom.Files.holding loneReturn, pull := some 4 }]

theorem quiet_quietPasses : ∀ pass ∈ quietPasses, pass.Quiet := by
  simp only [quietPasses, List.forall_mem_cons]
  refine ⟨⟨?_, nofun⟩, ⟨?_, nofun⟩, ⟨nofun, nofun⟩, nofun⟩
  · exact List.forall_mem_singleton.mpr rfl
  · exact List.forall_mem_singleton.mpr trivial

end Window

/-- The session halts in its first frame and processes a second one, and the run without a window
ends after its first frame although it may process two. -/
theorem hosts_run_same_machine_for_lone_return :
    let files := Rom.Files.holding loneReturn
    let others :=
      [ascii "--scale", ascii "3", ascii "--seed", ascii "7", ascii "--frames", ascii "2",
       ascii "r"]
    let options : Options := { romPath := ascii "r", seed := some 7 }
    let startup := ((Machine.fresh (MersenneTwister.seeded 0)).boot files options).1
    let session := ((Window.Session.opened options startup {} 0).run Window.quietPasses).1
    let bounded := { options with scale := 3, frames := session.scheduler.frames }
    session.scheduler.frames = 2 ∧ session.machine.halted = true ∧
      ∃ machine, Headless.run (MersenneTwister.seeded 1) files others =
          (Headless.completed bounded machine).outcome ∧
        (Headless.completed bounded machine).machine = session.machine := by
  intro files others options startup session bounded
  have starts : Headless.Starts (MersenneTwister.seeded 0) files
      [ascii "r", ascii "--seed", ascii "7"] options startup :=
    ⟨by decide +kernel, Prod.ext rfl (by decide +kernel)⟩
  obtain ⟨machine, -, ends, same⟩ := hosts_run_same_machine (MersenneTwister.seeded 0)
    (MersenneTwister.seeded 1) files [ascii "r", ascii "--seed", ascii "7"] others options startup
    starts rfl {} 0 Window.quietPasses Window.quiet_quietPasses 3 (by decide +kernel)
  exact ⟨by decide +kernel, by decide +kernel, machine, ends, same⟩

end Chip8
