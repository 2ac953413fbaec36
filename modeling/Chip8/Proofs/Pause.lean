import Chip8.Proofs.Chronicle
import Chip8.Proofs.ControlState
import Chip8.Proofs.KeyWait
import Chip8.Proofs.Presentation

/-!
This file holds the pause of a windowed session. A paused pass takes no frame, so that nothing but
strokes happens to the machine. The first press completes a wait, and then the registers rest as well.
-/

namespace Chip8

namespace Machine

/-- No stroke is stored by a machine that plays. -/
theorem strike_of_playing {machine : Machine} (playing : machine.mode = .running)
    (stroke : Stroke) :
    machine.strike stroke = { machine with keypad := machine.keypad.strike stroke } := by
  obtain ⟨key, down⟩ := stroke
  cases down with
  | true => exact keyDown_of_unheard fun _ => playing
  | false => rfl

/-- The machine is the earlier one, but for its registers, its keypad and its mode. -/
def Frozen (earlier machine : Machine) : Prop :=
  ∃ registers keypad mode,
    machine = { earlier with registers := registers, keypad := keypad, mode := mode }

theorem Frozen.refl (machine : Machine) : machine.Frozen machine :=
  ⟨_, _, _, rfl⟩

theorem Frozen.strike {earlier machine : Machine} (frozen : earlier.Frozen machine)
    (stroke : Stroke) : earlier.Frozen (machine.strike stroke) := by
  obtain ⟨registers, keypad, mode, rfl⟩ := frozen
  exact ⟨_, _, _, strike_eq _ stroke⟩

end Machine

namespace Change

/-- The registers or the mode have changed. -/
def Turns (change : Change) : Prop :=
  change.after.registers ≠ change.before.registers ∨ change.after.mode ≠ change.before.mode

instance : DecidablePred Turns :=
  fun _ => inferInstanceAs (Decidable (_ ∨ _))

/-- The key goes to the register of the wait, and the machine plays again. -/
structure Completes (change : Change) (key : UInt8) : Prop where
  unhalted : change.before.halted = false
  waiting : change.before.mode = .awaitingKey
  stored : ∃ x : Register, change.before.waitRegister = Register.toByte x ∧
    change.after =
      { change.before with
        registers := change.before.registers.set x key x.isLt, mode := .running,
        keypad := change.before.keypad.set key true }
  held : change.before.keypad.Gains change.after.keypad key

variable {change : Change} {strokes : List Stroke}

theorem Struck.mode_of_playing (struck : change.Struck strokes)
    (playing : change.before.mode = .running) : change.after.mode = .running := by
  cases struck with
  | kept machine => exact playing
  | struck machine counted =>
      rw [Machine.strike_of_playing playing]
      exact playing

theorem Struck.not_turns_of_playing (struck : change.Struck strokes)
    (playing : change.before.mode = .running) : ¬ change.Turns := by
  cases struck with
  | kept machine => simp [Turns]
  | struck machine counted =>
      rw [Turns, Machine.strike_of_playing playing]
      simp

/-- Nothing but a press that completes a wait turns the registers or the mode. -/
theorem Struck.exists_completes (struck : change.Struck strokes)
    (controlled : change.before.Controlled) (turns : change.Turns) :
    ∃ key, ⟨key, true⟩ ∈ strokes ∧ change.Completes key := by
  cases waiting : change.before.mode with
  | running => exact absurd turns (struck.not_turns_of_playing waiting)
  | awaitingKey =>
      cases struck with
      | kept machine => simp [Turns] at turns
      | @struck machine stroke counted =>
          obtain ⟨key, down⟩ := stroke
          cases down with
          | false => simp [Turns, Machine.strike, Machine.keyUp] at turns
          | true =>
              by_cases present : key < 16
              · have unhalted : machine.halted = false := by
                  rw [← Bool.not_eq_true]
                  exact fun halted => controlled.exclusive ⟨halted, waiting⟩
                let x : Register := ⟨machine.waitRegister, Nat.lt_succ_of_le controlled.waitRegister⟩
                have target : machine.waitRegister = Register.toByte x := rfl
                have stored := Machine.keyDown_of_waiting waiting target present
                exact ⟨key, counted, unhalted, waiting, ⟨x, target, stored⟩,
                  machine.gains_keyDown present⟩
              · simp [Turns, Machine.strike, Machine.keyDown, present] at turns

theorem Struck.frozen (struck : change.Struck strokes) {earlier : Machine}
    (frozen : earlier.Frozen change.before) : earlier.Frozen change.after := by
  cases struck with
  | kept machine => exact frozen
  | struck machine counted => exact frozen.strike _

/-- A machine that plays is not turned by strokes. -/
theorem turns_of_playing {changes : List Change} {start last : Machine}
    (linked : Linked start changes last) (struck : ∀ change ∈ changes, change.Struck strokes)
    (playing : start.mode = .running) : changes.filter (fun change => change.Turns) = [] := by
  have plays := (@Linked.keeps (fun machine => machine.mode = .running) _ _ _ linked
    (fun change member => (struck change member).mode_of_playing) playing).1
  rw [List.filter_eq_nil_iff]
  intro change member turns
  exact (struck change member).not_turns_of_playing (plays change member).1 (of_decide_eq_true turns)

/-- A wait is completed once, and then the machine plays. -/
theorem length_turns_le {changes : List Change} {start last : Machine}
    (linked : Linked start changes last) (struck : ∀ change ∈ changes, change.Struck strokes)
    (controlled : ∀ change ∈ changes, change.before.Controlled) :
    (changes.filter fun change => change.Turns).length ≤ 1 := by
  induction changes generalizing start with
  | nil => exact Nat.zero_le 1
  | cons change rest inductionHypothesis =>
      obtain ⟨here, later⟩ := List.forall_mem_cons.mp struck
      obtain ⟨first, others⟩ := List.forall_mem_cons.mp controlled
      by_cases turns : change.Turns
      · -- Behind the press the machine plays, and no later stroke turns it.
        obtain ⟨key, -, completes⟩ := here.exists_completes first turns
        obtain ⟨x, -, stored⟩ := completes.stored
        have plays : change.after.mode = .running := by rw [stored]
        rw [List.filter_cons_of_pos (by simpa using turns),
          turns_of_playing linked.2 later plays]
        exact Nat.le_refl 1
      · rw [List.filter_cons_of_neg (by simpa using turns)]
        exact inductionHypothesis linked.2 later others

end Change

namespace Window.Session

variable (session : Session)

/-- Every pass begins with the pause set, and none of them restarts the machine. -/
def PausedThroughout (passes : List Pass) : Prop :=
  session.Throughout
    (fun reached pass =>
      reached.active = true ∧ reached.paused = true ∧ ¬ reached.ResetPressed pass)
    passes

section Paused

variable {session} {pass : Pass} (paused : session.paused = true)

include paused

theorem playing_beforePanel_of_paused : (session.beforePanel pass).speaker.playing = false := by
  obtain ⟨_, _, _, handled⟩ := session.handleAll_eq pass.captured pass.events
  have stopped : ((session.handleAll pass.captured pass.events).runFrame
      pass.now).1.speaker.playing = false := by
    rw [runFrame_fst, handled, if_pos paused]
    rfl
  rw [beforePanel, reportHalt]
  split
  · rfl
  · exact stopped

variable (unpressed : ¬ session.ResetPressed pass)

include unpressed

theorem playing_pass_of_paused : (session.pass pass).1.speaker.playing = false := by
  obtain ⟨_, _, _, _, passed⟩ := session.pass_of_unpressed unpressed
  rw [passed]
  exact playing_beforePanel_of_paused paused

theorem scheduler_pass_of_paused :
    ∃ speed, (session.pass pass).1.scheduler = { session.scheduler with speed := speed } := by
  obtain ⟨speed, _, _, _, passed⟩ := session.pass_of_unpressed unpressed
  have kept := session.scheduler_beforePanel pass
  rw [if_pos (.inl paused)] at kept
  exact ⟨speed, by rw [passed, kept]⟩

theorem struck_of_paused {change : Change} (member : change ∈ session.passChanges pass) :
    change.Struck pass.strokes := by
  simp only [passChanges, frameChanges, if_pos (Or.inl paused : session.paused = true ∨ _),
    panelChange_of_unpressed _ unpressed, List.append_nil, List.mem_append,
    List.mem_singleton] at member
  rcases member with struck | rfl
  · exact session.struck_of_mem_eventChanges struck
  · exact .kept _

end Paused

namespace PausedThroughout

variable {session} {passes : List Pass}

theorem cons {pass : Pass} {rest : List Pass} (paused : session.PausedThroughout (pass :: rest)) :
    session.active = true ∧ session.paused = true ∧ ¬ session.ResetPressed pass ∧
      (session.pass pass).1.PausedThroughout rest := by
  obtain ⟨⟨active, pausing, unpressed⟩, later⟩ := paused
  rw [(session.run_singleton active).1] at later
  exact ⟨active, pausing, unpressed, later⟩

theorem struck (paused : session.PausedThroughout passes) {change : Change}
    (member : change ∈ session.chronicle passes) :
    change.Struck (passes.flatMap Pass.strokes) := by
  induction passes generalizing session with
  | nil => exact absurd member List.not_mem_nil
  | cons pass rest inductionHypothesis =>
      obtain ⟨active, pausing, unpressed, later⟩ := paused.cons
      simp only [chronicle, active, if_true, List.mem_append] at member
      rw [List.flatMap_cons]
      rcases member with here | behind
      · exact (struck_of_paused pausing unpressed here).mono (List.subset_append_left _ _)
      · exact (inductionHypothesis later behind).mono (List.subset_append_right _ _)

/-- The slider is all that reaches the scheduler. -/
theorem scheduler (paused : session.PausedThroughout passes) :
    ∃ speed, (session.run passes).1.scheduler = { session.scheduler with speed := speed } := by
  induction passes generalizing session with
  | nil => exact ⟨_, rfl⟩
  | cons pass rest inductionHypothesis =>
      obtain ⟨active, pausing, unpressed, later⟩ := paused.cons
      obtain ⟨_, here⟩ := scheduler_pass_of_paused pausing unpressed
      obtain ⟨speed, behind⟩ := inductionHypothesis later
      exact ⟨speed, by simp only [run, active, if_true, behind, here]⟩

theorem silent (paused : session.PausedThroughout passes) :
    session.Throughout
      (fun reached pass => (reached.presented pass).speaker.playing = false) passes := by
  induction passes generalizing session with
  | nil => trivial
  | cons pass rest inductionHypothesis =>
      obtain ⟨⟨-, pausing, unpressed⟩, later⟩ := paused
      have stopped := playing_pass_of_paused pausing unpressed
      rw [playing_pass] at stopped
      exact ⟨stopped, inductionHypothesis later⟩

theorem heard (paused : session.PausedThroughout passes) :
    ∀ calls ∈ (session.run passes).2.1, ∀ samples, HostCall.heard samples ∈ calls →
      ∀ sample ∈ samples, sample = .silence := by
  induction passes generalizing session with
  | nil => exact List.forall_mem_nil _
  | cons pass rest inductionHypothesis =>
      obtain ⟨active, pausing, unpressed, later⟩ := paused.cons
      simp only [run, active, if_true, List.forall_mem_cons]
      refine ⟨?_, inductionHypothesis later⟩
      intro samples pulled sample member
      exact (session.heard_silence_iff pulled member).mpr (playing_pass_of_paused pausing unpressed)

end PausedThroughout

/-- From its start to its end, a stretch keeps the machine but for the keypad, the registers and the
mode, and the scheduler but for its speed. The registers and the mode turn at most once, when a press
completes a wait, and nothing is heard. -/
structure Pauses (start : Session) (stretch : List Pass) : Prop where
  machine : (start.run stretch).1.machine =
    { start.machine with
      registers := (start.run stretch).1.machine.registers
      keypad := (start.run stretch).1.machine.keypad
      mode := (start.run stretch).1.machine.mode }
  scheduler : (start.run stretch).1.scheduler =
    { start.scheduler with speed := (start.run stretch).1.scheduler.speed }
  once : ((start.chronicle stretch).filter fun change => change.Turns).length ≤ 1
  completed : ∀ change ∈ start.chronicle stretch, change.Turns →
    ∃ key, ⟨key, true⟩ ∈ stretch.flatMap Pass.strokes ∧ change.Completes key
  silent : start.Throughout
    (fun reached pass => (reached.presented pass).speaker.playing = false) stretch
  heard : ∀ calls ∈ (start.run stretch).2.1, ∀ samples, HostCall.heard samples ∈ calls →
    ∀ sample ∈ samples, sample = .silence

/-- The pass takes one frame at most. The clock decides on it as if the pause had not been. -/
structure Resumes (start ended : Session) (pass : Pass) : Prop where
  frames : (ended.beforePanel pass).scheduler.frames =
    if pass.now < start.scheduler.last + start.scheduler.interval then start.scheduler.frames
    else start.scheduler.frames + 1
  machine : (ended.beforePanel pass).machine =
    let handled := (ended.handleAll pass.captured pass.events).machine
    if pass.now < start.scheduler.last + start.scheduler.interval then handled
    else handled.runFrame ended.scheduler.speed

theorem controlled_of_occurs {options : Options} (change : Change)
    (occurs : change.Occurs options) (controlled : change.before.Controlled) :
    change.after.Controlled := by
  cases occurs with
  | kept machine => exact controlled
  | struck machine stroke =>
      unfold Machine.strike
      split
      · exact Machine.Controlled.keyDown _ _ controlled
      · exact Machine.Controlled.keyUp _ _ controlled
  | stepped machine => exact Machine.Controlled.step _ controlled
  | ticked machine => exact Machine.Controlled.tickTimers _ controlled
  | booted machine files =>
      exact System.controlled_operate ⟨machine, {}⟩ (.boot files options) controlled

theorem PausedThroughout.pauses {start : Session} {stretch : List Pass}
    (paused : start.PausedThroughout stretch) (controlled : start.machine.Controlled) :
    start.Pauses stretch := by
  have linked := start.linked_chronicle stretch
  have visited := (start.chronicle_keeps controlled_of_occurs stretch controlled).1
  constructor
  case machine =>
    obtain ⟨registers, keypad, mode, same⟩ := (@Change.Linked.keeps start.machine.Frozen _ _ _
      linked (fun _ member => (paused.struck member).frozen) (.refl _)).2
    rw [same]
  case scheduler =>
    obtain ⟨speed, same⟩ := paused.scheduler
    rw [same]
  case once =>
    exact Change.length_turns_le linked (fun _ => paused.struck) fun change member =>
      (visited change member).1
  case completed =>
    intro change member turns
    exact (paused.struck member).exists_completes (visited change member).1 turns
  case silent => exact paused.silent
  case heard => exact paused.heard

/-- The clock has been running all along, but the frames that it has missed are not made up for. -/
theorem PausedThroughout.resumes {start : Session} {stretch : List Pass}
    (paused : start.PausedThroughout stretch) (unpaused : (start.run stretch).1.paused = false)
    (pass : Pass) : start.Resumes (start.run stretch).1 pass := by
  obtain ⟨speed, same⟩ := paused.scheduler
  constructor
  case frames =>
    rw [scheduler_beforePanel, unpaused, same]
    simp only [Bool.false_eq_true, false_or]
    split <;> rfl
  case machine =>
    rw [machine_beforePanel, current, unpaused, same]
    simp only [Bool.false_eq_true, false_or]

end Window.Session

open Window Text

/-- A pause freezes the machine of a run. However long it lasts and whatever is done in it, no frame is
taken, nothing is heard, and the first pass behind it takes one frame at most. -/
theorem pause_freezes_machine (generator : MersenneTwister) (files : Rom.Files)
    (arguments : List ByteString) (options : Options) (startup : Machine)
    (starts : Headless.Starts generator files arguments options startup) (host : Host)
    (startTime : Int) (earlier stretch : List Pass) :
    let start := ((openedSession host startTime options startup).run earlier).1
    let ended := (start.run stretch).1
    start.PausedThroughout stretch →
      start.Pauses stretch ∧ (ended.paused = false → ∀ pass, start.Resumes ended pass) := by
  intro start ended paused
  have controlled : start.machine.Controlled :=
    (Session.chronicle_keeps _ Session.controlled_of_occurs earlier starts.controlled).2
  exact ⟨paused.pauses controlled, fun unpaused pass => paused.resumes unpaused pass⟩

/-- The first frame begins a wait for the third register, and the pause begins behind it. A press in the
pause completes the wait, and the pause ends hours later with one frame. -/
theorem pause_freezes_waiting_machine :
    let files := Rom.Files.holding [0xF3, 0x0A]
    let options : Options := { romPath := ascii "r" }
    let startup := ((Machine.fresh (MersenneTwister.seeded 0)).boot files options).1
    let opened := openedSession {} 0 options startup
    let waits : Pass := { now := 20000000, files := files, actions := [.togglePause] }
    let presses : Pass :=
      { now := 40000000, files := files, events := [.keyDown 30], actions := [.setSpeed 50] }
    let ends : Pass :=
      { now := 10000000000000, files := files, events := [.keyDown 31], actions := [.togglePause] }
    let goesOn : Pass := { now := 20000000000000, files := files }
    let start := (opened.run [waits]).1
    let ended := (start.run [presses, ends]).1
    start.machine.mode = .awaitingKey ∧ ended.machine.mode = .running ∧
      ended.machine.register 3 = 1 ∧ ended.machine.pc = start.machine.pc ∧
      (ended.beforePanel goesOn).scheduler.frames = start.scheduler.frames + 1 := by
  intro files options startup opened waits presses ends goesOn start ended
  have starts : Headless.Starts (MersenneTwister.seeded 0) files [ascii "r"] options startup :=
    ⟨by decide +kernel, Prod.ext rfl (by decide +kernel)⟩
  have paused : start.PausedThroughout [presses, ends] := by
    refine ⟨⟨by decide +kernel, by decide +kernel, ?_⟩, ⟨by decide +kernel, by decide +kernel, ?_⟩,
      trivial⟩
    · exact fun reset => absurd reset.pressed (by decide)
    · exact fun reset => absurd reset.pressed (by decide)
  obtain ⟨pauses, resumes⟩ := pause_freezes_machine (MersenneTwister.seeded 0) files [ascii "r"]
    options startup starts {} 0 [waits] [presses, ends] paused
  have late : ¬ goesOn.now < start.scheduler.last + start.scheduler.interval := by decide +kernel
  have resumed := (resumes (by decide +kernel) goesOn).frames
  rw [if_neg late] at resumed
  have counter := congrArg Machine.pc pauses.machine
  exact ⟨by decide +kernel, by decide +kernel, by decide +kernel, counter, resumed⟩

end Chip8
