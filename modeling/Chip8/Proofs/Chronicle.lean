import Chip8.Proofs.SessionReset
import Chip8.Proofs.Strokes
import Chip8.Proofs.Trail

/-!
This file holds the chronicle of a windowed session, which lists everything that happens to its
machine: the events, the steps and the timers of the frames, and the work of the panel.
-/

namespace Chip8

/-- Something happens to a machine. -/
structure Change where
  before : Machine
  after : Machine

namespace Change

/-- Each change starts where the one before it has ended. -/
def Linked (start : Machine) : List Change → Machine → Prop
  | [], last => start = last
  | change :: rest, last => change.before = start ∧ Linked change.after rest last

theorem Linked.append {start middle last : Machine} {earlier later : List Change}
    (first : Linked start earlier middle) (second : Linked middle later last) :
    Linked start (earlier ++ later) last := by
  induction earlier generalizing start with
  | nil =>
      obtain rfl : start = middle := first
      exact second
  | cons change rest inductionHypothesis => exact ⟨first.1, inductionHypothesis first.2⟩

theorem linked_singleton (before after : Machine) : Linked before [⟨before, after⟩] after :=
  ⟨rfl, rfl⟩

/-- What every change keeps holds from the first machine to the last one. -/
theorem Linked.keeps {Holds : Machine → Prop} {start last : Machine} {changes : List Change}
    (linked : Linked start changes last)
    (keep : ∀ change ∈ changes, Holds change.before → Holds change.after) (holds : Holds start) :
    (∀ change ∈ changes, Holds change.before ∧ Holds change.after) ∧ Holds last := by
  induction changes generalizing start with
  | nil =>
      obtain rfl : start = last := linked
      exact ⟨List.forall_mem_nil _, holds⟩
  | cons change rest inductionHypothesis =>
      obtain ⟨rfl, behind⟩ := linked
      obtain ⟨first, others⟩ := List.forall_mem_cons.mp keep
      obtain ⟨later, last⟩ := inductionHypothesis behind others (first holds)
      exact ⟨List.forall_mem_cons.mpr ⟨⟨holds, first holds⟩, later⟩, last⟩

/-- Nothing but these strokes happens to the machine. -/
inductive Struck (strokes : List Stroke) : Change → Prop
  | kept (machine : Machine) : Struck strokes ⟨machine, machine⟩
  | struck (machine : Machine) {stroke : Stroke} (counted : stroke ∈ strokes) :
      Struck strokes ⟨machine, machine.strike stroke⟩

theorem Struck.mono {change : Change} {strokes others : List Stroke} (struck : change.Struck strokes)
    (among : strokes ⊆ others) : change.Struck others := by
  cases struck with
  | kept machine => exact .kept machine
  | struck machine counted => exact .struck machine (among counted)

/-- Nothing else happens to the machine of a session with these options. -/
inductive Occurs (options : Options) : Change → Prop
  | kept (machine : Machine) : Occurs options ⟨machine, machine⟩
  | struck (machine : Machine) (stroke : Stroke) : Occurs options ⟨machine, machine.strike stroke⟩
  | stepped (machine : Machine) : Occurs options ⟨machine, machine.step⟩
  | ticked (machine : Machine) : Occurs options ⟨machine, machine.tickTimers⟩
  | booted (machine : Machine) (files : Rom.Files) :
      Occurs options ⟨machine, (machine.boot files options).1⟩

end Change

namespace Machine

variable (machine : Machine)

/-- A frame takes its steps and counts its timers in the end. -/
def frameChanges (speed : Int) : List Change :=
  (machine.trail speed.toNat).map (fun visited => ⟨visited, visited.step⟩) ++
    [⟨machine.runSteps speed.toNat, machine.runFrame speed⟩]

theorem linked_trail (count : Nat) :
    Change.Linked machine ((machine.trail count).map fun visited => ⟨visited, visited.step⟩)
      (machine.runSteps count) := by
  induction count generalizing machine with
  | zero => rfl
  | succ count inductionHypothesis =>
      rw [trail, runSteps]
      split
      · exact ⟨rfl, inductionHypothesis machine.step⟩
      · rfl

theorem linked_frameChanges (speed : Int) :
    Change.Linked machine (machine.frameChanges speed) (machine.runFrame speed) :=
  (machine.linked_trail speed.toNat).append (Change.linked_singleton _ _)

theorem occurs_of_mem_frameChanges (options : Options) {speed : Int} {change : Change}
    (member : change ∈ machine.frameChanges speed) : change.Occurs options := by
  rcases List.mem_append.mp member with stepped | last
  · obtain ⟨visited, -, rfl⟩ := List.mem_map.mp stepped
    exact .stepped visited
  · obtain rfl := List.mem_singleton.mp last
    rw [runFrame]
    split
    · exact .ticked _
    · exact .kept _

end Machine

namespace Window.Session

/-- An event without a stroke is listed as well. -/
def eventChanges (session : Session) (captured : Bool) : List Event → List Change
  | [] => []
  | event :: rest =>
      let next := session.handle captured event
      ⟨session.machine, next.machine⟩ :: next.eventChanges captured rest

variable (session : Session)

/-- A paused or refused pass takes no frame. -/
def frameChanges (pass : Pass) : List Change :=
  let handled := session.handleAll pass.captured pass.events
  if session.paused = true ∨ pass.now < session.scheduler.last + session.scheduler.interval then []
  else handled.machine.frameChanges session.scheduler.speed

/-- The panel finds the machine behind the events and the frame. -/
def panelChange (pass : Pass) : Change :=
  ⟨session.current pass, (session.pass pass).1.machine⟩

def passChanges (pass : Pass) : List Change :=
  session.eventChanges pass.captured pass.events ++ session.frameChanges pass ++
    [session.panelChange pass]

/-- The chronicle ends with the last pass that is carried out. -/
def chronicle (session : Session) : List Pass → List Change
  | [] => []
  | pass :: rest =>
      if session.active then session.passChanges pass ++ (session.pass pass).1.chronicle rest
      else []

theorem chronicle_of_inactive (inactive : session.active = false) (passes : List Pass) :
    session.chronicle passes = [] := by
  cases passes with
  | nil => rfl
  | cons first rest => simp [chronicle, inactive]

theorem linked_eventChanges (captured : Bool) (events : List Event) :
    Change.Linked session.machine (session.eventChanges captured events)
      (session.handleAll captured events).machine := by
  induction events generalizing session with
  | nil => rfl
  | cons event rest inductionHypothesis =>
      exact ⟨rfl, inductionHypothesis (session.handle captured event)⟩

theorem linked_frameChanges (pass : Pass) :
    Change.Linked (session.handleAll pass.captured pass.events).machine
      (session.frameChanges pass) (session.current pass) := by
  unfold frameChanges current
  dsimp only
  split
  · rfl
  · exact Machine.linked_frameChanges _ _

/-- Nothing happens to the machine of a run between the changes of its chronicle. -/
theorem linked_chronicle (passes : List Pass) :
    Change.Linked session.machine (session.chronicle passes) (session.run passes).1.machine := by
  induction passes generalizing session with
  | nil => rfl
  | cons pass rest inductionHypothesis =>
      simp only [chronicle, run]
      split
      · have handled := session.linked_eventChanges pass.captured pass.events
        have framed := handled.append (session.linked_frameChanges pass)
        have passed := framed.append (Change.linked_singleton _ (session.pass pass).1.machine)
        exact passed.append (inductionHypothesis (session.pass pass).1)
      · rfl

/-- An event strikes the machine or keeps it. -/
theorem struck_of_mem_eventChanges {captured : Bool} {events : List Event} {change : Change}
    (member : change ∈ session.eventChanges captured events) :
    change.Struck (events.filterMap (Event.stroke? captured)) := by
  induction events generalizing session with
  | nil => exact absurd member List.not_mem_nil
  | cons event rest inductionHypothesis =>
      rcases List.mem_cons.mp member with rfl | later
      · rw [machine_handle]
        cases counted : event.stroke? captured with
        | none => exact .kept session.machine
        | some stroke =>
            rw [List.filterMap_cons_some counted]
            exact .struck session.machine List.mem_cons_self
      · apply (inductionHypothesis (session.handle captured event) later).mono
        intro stroke struck
        obtain ⟨source, found, counted⟩ := List.mem_filterMap.mp struck
        exact List.mem_filterMap.mpr ⟨source, List.mem_cons_of_mem event found, counted⟩

/-- Without a press of its button the panel keeps the machine. -/
theorem panelChange_of_unpressed {pass : Pass} (unpressed : ¬ session.ResetPressed pass) :
    session.panelChange pass = ⟨session.current pass, session.current pass⟩ := by
  obtain ⟨_, _, _, _, passed⟩ := session.pass_of_unpressed unpressed
  rw [panelChange, passed, machine_beforePanel]

theorem occurs_of_mem_passChanges {pass : Pass} {change : Change}
    (member : change ∈ session.passChanges pass) : change.Occurs session.options := by
  simp only [passChanges, List.mem_append, List.mem_singleton] at member
  rcases member with (struck | framed) | rfl
  · cases session.struck_of_mem_eventChanges struck with
    | kept machine => exact .kept machine
    | struck machine counted => exact .struck machine _
  · simp only [frameChanges] at framed
    split at framed
    · exact absurd framed List.not_mem_nil
    · exact Machine.occurs_of_mem_frameChanges _ _ framed
  · by_cases pressed : session.ResetPressed pass
    · rw [panelChange, (rebooted_of_pressed pressed).machine]
      exact .booted _ pass.files
    · rw [panelChange_of_unpressed _ pressed]
      exact .kept _

theorem occurs_of_mem_chronicle {passes : List Pass} {change : Change}
    (member : change ∈ session.chronicle passes) : change.Occurs session.options := by
  induction passes generalizing session with
  | nil => exact absurd member List.not_mem_nil
  | cons pass rest inductionHypothesis =>
      simp only [chronicle] at member
      split at member
      · rcases List.mem_append.mp member with here | later
        · exact session.occurs_of_mem_passChanges here
        · rw [← session.options_pass pass]
          exact inductionHypothesis (session.pass pass).1 later
      · exact absurd member List.not_mem_nil

/-- What every possible change keeps holds in a whole run. -/
theorem chronicle_keeps {Holds : Machine → Prop}
    (keep : ∀ change : Change, change.Occurs session.options → Holds change.before →
      Holds change.after) (passes : List Pass) (holds : Holds session.machine) :
    (∀ change ∈ session.chronicle passes, Holds change.before ∧ Holds change.after) ∧
      Holds (session.run passes).1.machine := by
  apply (session.linked_chronicle passes).keeps _ holds
  intro change member
  exact keep change (session.occurs_of_mem_chronicle member)

end Window.Session

end Chip8
