import Chip8.Proofs.SessionStages
import Chip8.Proofs.Startup
import Chip8.Proofs.System
import Chip8.Window.Launch

/-!
This file holds the reset of a windowed session. No stage of a pass reaches the options. Every reset
therefore boots as the startup did.
-/

namespace Chip8.Window

namespace Session

variable (session : Session)

theorem options_beforePanel (pass : Pass) :
    (session.beforePanel pass).options = session.options := by
  obtain ⟨_, _, _, _, reached⟩ := session.beforePanel_eq pass
  obtain ⟨_, _, _, handled⟩ := session.handleAll_eq pass.captured pass.events
  rw [reached, handled]

theorem options_reset (files : Rom.Files) (now : Int) :
    (session.reset files now).1.options = session.options := by
  simp only [reset]
  split <;> rfl

theorem options_showPanel (pass : Pass) :
    (session.showPanel pass).1.options = session.options := by
  obtain ⟨_, _, _, adjusted⟩ := session.adjustAll_eq pass.actions
  simp only [showPanel, adjusted]
  split
  · split
    · exact options_reset _ pass.files pass.now
    · rfl
  · rfl

theorem options_pass (pass : Pass) : (session.pass pass).1.options = session.options := by
  obtain ⟨_, played⟩ := ((session.beforePanel pass).showPanel pass).1.playSamples_eq pass.pull
  rw [pass_fst, played]
  exact ((session.beforePanel pass).options_showPanel pass).trans (session.options_beforePanel pass)

/-- The options of the startup are the options of the whole run. -/
theorem options_run (passes : List Pass) : (session.run passes).1.options = session.options := by
  induction passes generalizing session with
  | nil => rfl
  | cons first rest inductionHypothesis =>
      simp only [run]
      split
      · exact (inductionHypothesis (session.pass first).1).trans (session.options_pass first)
      · rfl

/-- The button is pressed on a panel that is shown. -/
structure ResetPressed (pass : Pass) : Prop where
  shown : (session.handleAll pass.captured pass.events).panelShown = true
  pressed : PanelAction.reset ∈ pass.actions

/-- No stage before the panel turns it but the events. -/
theorem unpressed_beforePanel {pass : Pass} (unpressed : ¬ session.ResetPressed pass) :
    ¬ ((session.beforePanel pass).panelShown = true ∧ PanelAction.reset ∈ pass.actions) := by
  obtain ⟨_, _, _, _, reached⟩ := session.beforePanel_eq pass
  rw [reached]
  exact fun pressed => unpressed ⟨pressed.1, pressed.2⟩

/-- Without a press of the button, the widgets reach no more than the speed, the pause and the
panel behind the report. -/
theorem pass_of_unpressed {pass : Pass} (unpressed : ¬ session.ResetPressed pass) :
    ∃ speed paused panelShown phase, (session.pass pass).1 =
      { session.beforePanel pass with
        scheduler := { (session.beforePanel pass).scheduler with speed := speed }
        speaker := { (session.beforePanel pass).speaker with phase := phase }
        paused := paused
        panelShown := panelShown } := by
  obtain ⟨phase, played⟩ := (session.presented pass).playSamples_eq pass.pull
  obtain ⟨speed, paused, panelShown, adjusted⟩ :=
    (session.beforePanel pass).adjustAll_eq pass.actions
  have shown := (showPanel_of_unpressed _ (session.unpressed_beforePanel unpressed)).1
  rw [adjusted] at shown
  split at shown
  · exact ⟨speed, paused, panelShown, phase, played.trans (by rw [presented, shown])⟩
  · exact ⟨_, _, _, phase, played.trans (by rw [presented, shown])⟩

theorem errors_pass_of_unpressed {pass : Pass} (unpressed : ¬ session.ResetPressed pass) :
    (session.pass pass).2.2 =
      ((session.handleAll pass.captured pass.events).runFrame pass.now).1.reportHalt.2 := by
  have silent := (showPanel_of_unpressed _ (session.unpressed_beforePanel unpressed)).2
  rw [pass_errors, silent, List.append_nil]

/-- The pass ends with this boot. A boot that fails is reported, and it ends the session. -/
structure Rebooted (pass : Pass) (booted : Machine × Option BootError) : Prop where
  machine : (session.pass pass).1.machine = booted.1
  active : (session.pass pass).1.active =
    ((session.handleAll pass.captured pass.events).active && booted.2.isNone)
  unreported : (session.pass pass).1.haltReported = false
  reports : (session.pass pass).2.2 =
    ((session.handleAll pass.captured pass.events).runFrame pass.now).1.reportHalt.2 ++
      (booted.2.map (BootError.message session.options.romPath)).getD []

/-- The pass ends with this machine. Its events alone tell whether the session goes on, and nothing
but a halt is reported. -/
structure Restored (pass : Pass) (startup : Machine) : Prop where
  machine : (session.pass pass).1.machine = startup
  active : (session.pass pass).1.active = (session.handleAll pass.captured pass.events).active
  reports : (session.pass pass).2.2 =
    ((session.handleAll pass.captured pass.events).runFrame pass.now).1.reportHalt.2

theorem reset_eq (files : Rom.Files) (now : Int) :
    let booted := session.machine.boot files session.options
    session.reset files now =
      ({ session with
          machine := booted.1, scheduler := session.scheduler.start now, haltReported := false,
          active := session.active && booted.2.isNone },
        (booted.2.map (BootError.message session.options.romPath)).getD []) := by
  intro booted
  simp only [reset]
  split
  · rename_i success
    simp [booted, success]
  · rename_i error failure
    simp [booted, failure]

variable {session}

/-- A press of the button boots the machine, whatever else is done to the widgets. -/
theorem showPanel_of_pressed {pass : Pass} (shown : session.panelShown = true)
    (pressed : PanelAction.reset ∈ pass.actions) :
    let booted := session.machine.boot pass.files session.options
    (session.showPanel pass).1.machine = booted.1 ∧
      (session.showPanel pass).1.active = (session.active && booted.2.isNone) ∧
      (session.showPanel pass).1.haltReported = false ∧
      (session.showPanel pass).2.2 =
        (booted.2.map (BootError.message session.options.romPath)).getD [] := by
  intro booted
  obtain ⟨speed, paused, panelShown, adjusted⟩ := session.adjustAll_eq pass.actions
  have contained : pass.actions.contains .reset = true := List.contains_iff_mem.mpr pressed
  simp only [showPanel, if_pos shown, if_pos contained, adjusted]
  rw [reset_eq]
  exact ⟨rfl, rfl, rfl, rfl⟩

theorem rebooted_of_pressed {pass : Pass} (reset : session.ResetPressed pass) :
    session.Rebooted pass ((session.current pass).boot pass.files session.options) := by
  obtain ⟨_, _, _, _, reached⟩ := session.beforePanel_eq pass
  obtain ⟨_, played⟩ := ((session.beforePanel pass).showPanel pass).1.playSamples_eq pass.pull
  have shown : (session.beforePanel pass).panelShown = true := by
    rw [reached]
    exact reset.shown
  have sameActive : (session.beforePanel pass).active =
      (session.handleAll pass.captured pass.events).active := by rw [reached]
  obtain ⟨machine, active, unreported, complaint⟩ := showPanel_of_pressed shown reset.pressed
  rw [options_beforePanel, machine_beforePanel] at machine active complaint
  rw [sameActive] at active
  constructor
  case machine =>
    rw [pass_fst, played]
    exact machine
  case active =>
    rw [pass_fst, played]
    exact active
  case unreported =>
    rw [pass_fst, played]
    exact unreported
  case reports => rw [pass_errors, complaint]

theorem restored_of_boot {pass : Pass} {startup : Machine} (reset : session.ResetPressed pass)
    (boots : ∀ machine : Machine,
      machine.boot pass.files session.options = (startup, none)) :
    session.Restored pass startup := by
  have rebooted := rebooted_of_pressed reset
  rw [boots] at rebooted
  constructor
  case machine => exact rebooted.machine
  case active => simpa using rebooted.active
  case reports => simpa using rebooted.reports

end Session

/-- Every reset in a run restores the machine of the startup. -/
def ResetsRestore (files : Rom.Files) (options : Options) (startup : Machine) : Prop :=
  ∀ (speaker : Speaker) (startTime : Int) (passes : List Pass) (pass : Pass),
    let reached := ((Session.opened options startup speaker startTime).run passes).1
    pass.files options.romPath = files options.romPath → reached.ResetPressed pass →
      reached.Restored pass startup

end Chip8.Window

namespace Chip8

/-- The boot of a file below two gigabytes forgets everything but the generator, and a given seed
replaces the generator as well. A windowed session that was started with a seed can therefore be
reset at any moment of its run. -/
theorem boot_erases_history (files : Rom.Files) (options : Options)
    (small : ∀ bytes, files options.romPath = some (.regular bytes) → bytes.length < 0x80000000) :
    BootSettled files options ∧
      ∀ machine : Machine, options.seed.isSome = true → (machine.boot files options).2 = none →
        Window.ResetsRestore files options (machine.boot files options).1 := by
  have settled := BootSettled.of_small small
  refine ⟨settled, ?_⟩
  intro machine seeded success speaker startTime passes pass reached unchanged pressed
  have opened : reached.options = options :=
    (Window.Session.opened options _ speaker startTime).options_run passes
  apply Window.Session.restored_of_boot pressed
  intro other
  rw [opened, Machine.boot_congr unchanged, ← settled.identical seeded machine other success]
  exact Prod.ext rfl success

namespace Window

/-- The frame of this pass halts on a return, and then the session is paused. -/
def haltingPass : Pass where
  now := 20000000
  files := Rom.Files.holding loneReturn
  actions := [.togglePause]

def resetPass : Pass where
  now := 40000000
  files := Rom.Files.holding loneReturn
  actions := [.setSpeed 20, .reset]

end Window

/-- A session that has halted and is paused begins anew. -/
theorem boot_erases_history_of_lone_return :
    let options : Options := { seed := some 7 }
    let machine := Machine.fresh (MersenneTwister.seeded 0)
    let startup := (machine.boot (Rom.Files.holding loneReturn) options).1
    let reached := ((Window.Session.opened options startup {} 0).run [Window.haltingPass]).1
    BootSettled (Rom.Files.holding loneReturn) options ∧ reached.machine.halted = true ∧
      reached.paused = true ∧ reached.Restored Window.resetPass startup := by
  intro options machine startup reached
  have small : ∀ bytes, Rom.Files.holding loneReturn options.romPath = some (.regular bytes) →
      bytes.length < 0x80000000 := by
    rintro bytes ⟨⟩
    decide
  obtain ⟨settled, restores⟩ := boot_erases_history (Rom.Files.holding loneReturn) options small
  have started : (machine.boot (Rom.Files.holding loneReturn) options).2 = none := by
    decide +kernel
  have pressed : reached.ResetPressed Window.resetPass :=
    ⟨by decide +kernel, by decide⟩
  exact ⟨settled, by decide +kernel, by decide +kernel,
    restores machine rfl started {} 0 [Window.haltingPass] Window.resetPass rfl pressed⟩

end Chip8
