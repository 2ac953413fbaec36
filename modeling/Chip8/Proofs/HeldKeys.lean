import Chip8.Proofs.HaltTone
import Chip8.Proofs.Presentation
import Chip8.Proofs.Strokes

/-!
This file holds the held keys of a windowed session. Nothing but strokes and resets reaches the
keypad, so that a key is held when the last of its strokes since the machine was started is a press.
-/

namespace Chip8

namespace Machine

theorem keypad_step (machine : Machine) : machine.step.keypad = machine.keypad := by
  refine @step_cases (fun next => next.keypad = machine.keypad) machine
    ?idle ?unfetched ?refused ?performed
  case idle => exact fun _ => rfl
  case unfetched => exact fun _ _ => rfl
  case refused => exact fun _ _ _ _ => rfl
  case performed =>
    intro instruction _ _ _
    rw [keypad_perform]
    rfl

theorem keypad_runFrame (machine : Machine) (speed : Int) :
    (machine.runFrame speed).keypad = machine.keypad := by
  apply @runFrame_keeps (fun next => next.keypad = machine.keypad)
  case stepKeeps => exact fun next same => next.keypad_step.trans same
  case timersKeep => exact fun _ same => same
  case holds => rfl

theorem keypad_booted (machine : Machine) (files : Rom.Files) (options : Options)
    (success : (machine.boot files options).2 = none) :
    (machine.boot files options).1.keypad = .released := by
  obtain ⟨memory, booted⟩ := machine.booted_eq files options success
  rw [booted]
  cases options.seed <;> rfl

end Machine

namespace Window.Session

variable (session : Session)

theorem keypad_handleAll (pass : Pass) :
    (session.handleAll pass.captured pass.events).machine.keypad =
      pass.strokes.foldl Keypad.strike session.machine.keypad := by
  rw [machine_handleAll, Machine.keypad_strikes, Pass.strokes]

/-- A frame holds and releases no key. -/
theorem keypad_current (pass : Pass) :
    (session.current pass).keypad =
      (session.handleAll pass.captured pass.events).machine.keypad := by
  unfold current
  dsimp only
  split
  · rfl
  · exact Machine.keypad_runFrame _ _

theorem active_of_append {first second : List Pass}
    (active : (session.run (first ++ second)).1.active = true) :
    (session.run first).1.active = true := by
  rw [(session.run_append first second).1] at active
  cases before : (session.run first).1.active with
  | true => rfl
  | false =>
      rw [run_of_inactive _ before, before] at active
      exact active

/-- The passes are divided where the machine was started last, which is at the startup or at a press
of the reset button. -/
structure StartedLast (passes before since : List Pass) : Prop where
  joined : passes = before ++ since
  started : before = [] ∨
    ∃ first last, before = first ++ [last] ∧ (session.run first).1.ResetPressed last
  unreset : (session.run before).1.Unreset since

variable {session}

theorem exists_startedLast {passes : List Pass}
    (active : (session.run passes).1.active = true) :
    ∃ before since, session.StartedLast passes before since := by
  induction passes using List.reverseRecOn with
  | nil => exact ⟨[], [], rfl, .inl rfl, trivial⟩
  | append_singleton passes pass inductionHypothesis =>
      have going := session.active_of_append active
      by_cases pressed : (session.run passes).1.ResetPressed pass
      · exact ⟨passes ++ [pass], [], (List.append_nil _).symm,
          .inr ⟨passes, pass, rfl, pressed⟩, trivial⟩
      · obtain ⟨before, since, rfl, started, unreset⟩ := inductionHypothesis going
        refine ⟨before, since ++ [pass], List.append_assoc _ _ _, started, ?_⟩
        rw [(session.run_append before since).1] at going pressed
        exact unreset_concat.mpr ⟨unreset, going, pressed⟩

/-- Between two resets the keypad follows the strokes. -/
theorem keypad_of_unreset {passes : List Pass} (unreset : session.Unreset passes) :
    (session.run passes).1.machine.keypad =
      (passes.flatMap Pass.strokes).foldl Keypad.strike session.machine.keypad := by
  induction passes generalizing session with
  | nil => rfl
  | cons pass rest inductionHypothesis =>
      obtain ⟨active, unpressed, later⟩ := unreset.cons
      have here : (session.pass pass).1.machine.keypad =
          pass.strokes.foldl Keypad.strike session.machine.keypad := by
        obtain ⟨_, _, _, _, passed⟩ := session.pass_of_unpressed unpressed
        rw [passed, ← keypad_handleAll, ← keypad_current, ← machine_beforePanel]
      simp only [run, active, if_true]
      rw [inductionHypothesis later, here, List.flatMap_cons, List.foldl_append]

/-- A reset that leaves the session active has released the keypad. -/
theorem StartedLast.keypad {passes before since : List Pass}
    (startedLast : session.StartedLast passes before since)
    (released : session.machine.keypad = .released)
    (active : (session.run passes).1.active = true) :
    (session.run before).1.machine.keypad = .released := by
  obtain ⟨rfl, started, -⟩ := startedLast
  have going := session.active_of_append active
  rcases started with rfl | ⟨first, last, rfl, pressed⟩
  · exact released
  · have earlier := session.active_of_append going
    have passed := (session.run_append first [last]).1
    rw [(run_singleton _ earlier).1] at passed
    have rebooted := rebooted_of_pressed pressed
    rw [passed, rebooted.active, Bool.and_eq_true, Option.isNone_iff_eq_none] at going
    rw [passed, rebooted.machine]
    exact Machine.keypad_booted _ _ _ going.2

/-- A release always counts, so that no key is stuck behind it. -/
theorem isPressed_of_keyUp_last (session : Session) (captured : Bool) (events : List Event)
    {scancode : Scancode} {key : UInt8} (named : key? scancode = some key) :
    (session.handleAll captured (events ++ [.keyUp scancode])).machine.keypad.isPressed key =
      false := by
  have last : (session.handleAll captured (events ++ [.keyUp scancode])).machine =
      (session.handleAll captured events).machine.keyUp key := by
    simp only [handleAll, List.foldl_concat, handle, named]
  rw [last, Machine.keyUp, Keypad.isPressed_set]
  by_cases present : key.toNat < 16
  · simp [present]
  · simp [present, Keypad.isPressed]

/-- The keys of the window and the keys without a place on the keypad do not reach the machine. -/
theorem machine_handle_of_unnamed (session : Session) (captured : Bool) {scancode : Scancode}
    (unnamed : key? scancode = none) :
    ∀ event ∈ [Event.keyDown scancode, .keyRepeat scancode, .keyUp scancode],
      (session.handle captured event).machine = session.machine := by
  have uncounted : ∀ event ∈ [Event.keyDown scancode, .keyRepeat scancode, .keyUp scancode],
      event.stroke? captured = none := by
    simp [Event.stroke?, unnamed]
  intro event member
  rw [machine_handle, uncounted event member]
  rfl

end Window.Session

open Window

/-- A key is held behind the events of a pass exactly when the last of its strokes since the startup
or the last reset is a press. A release always counts, and the keys of the window reach neither the
keypad nor a wait. -/
theorem held_keys_follow_strokes (generator : MersenneTwister) (files : Rom.Files)
    (arguments : List ByteString) (options : Options) (startup : Machine)
    (starts : Headless.Starts generator files arguments options startup) (host : Host)
    (startTime : Int) (passes : List Pass) (pass : Pass) :
    let opened := openedSession host startTime options startup
    let reached := (opened.run passes).1
    let handled := reached.handleAll pass.captured pass.events
    reached.active = true →
      (∃ before since, opened.StartedLast passes before since) ∧
        (∀ before since, opened.StartedLast passes before since → ∀ key < 16,
          (handled.machine.keypad.isPressed key = true ↔
            PressedLast key ((since ++ [pass]).flatMap Pass.strokes))) ∧
        (reached.beforePanel pass).machine.keypad = handled.machine.keypad ∧
        ∀ scancode,
          (∀ key events, key? scancode = some key →
            (reached.handleAll pass.captured (events ++ [.keyUp scancode])).machine.keypad.isPressed
              key = false) ∧
          (scancode = escapeScancode ∨ scancode = panelScancode ∨ key? scancode = none →
            ∀ event ∈ [Event.keyDown scancode, .keyRepeat scancode, .keyUp scancode],
              (reached.handle pass.captured event).machine = reached.machine) := by
  intro opened reached handled active
  refine ⟨Session.exists_startedLast active, ?_, ?_, ?_⟩
  · intro before since startedLast key present
    have released : opened.machine.keypad = .released := by
      have booted := (Machine.fresh generator).keypad_booted files options (by rw [starts.booted])
      rwa [starts.booted] at booted
    have before := startedLast.keypad released active
    have since := Session.keypad_of_unreset startedLast.unreset
    rw [← (opened.run_append _ _).1, ← startedLast.joined, before] at since
    rw [← Keypad.isPressed_strikes_iff present, List.flatMap_append, List.flatMap_singleton,
      List.foldl_append, ← since, ← Session.keypad_handleAll]
  · rw [Session.machine_beforePanel, Session.keypad_current]
  · intro scancode
    refine ⟨fun key events named => reached.isPressed_of_keyUp_last _ events named, ?_⟩
    intro foreign
    apply reached.machine_handle_of_unnamed
    rcases foreign with escape | panel | unnamed
    · exact key?_of_window_key (.inl escape)
    · exact key?_of_window_key (.inr panel)
    · exact unnamed

/-- A reset forgets the first key. The panel takes the keyboard while two others are held, of which one
is released behind it, and a press that it takes does not count. -/
theorem held_keys_follow_strokes_through_capture :
    let files := Rom.Files.holding loneReturn
    let options : Options := { romPath := Text.ascii "r" }
    let startup := ((Machine.fresh (MersenneTwister.seeded 0)).boot files options).1
    let resets : Pass := { now := 1, files := files, events := [.keyDown 31], actions := [.reset] }
    let presses : Pass := { now := 2, files := files, events := [.keyDown 30, .keyDown 26] }
    let captures : Pass :=
      { now := 3, files := files, captured := true, events := [.keyUp 30, .keyDown 20, .keyRepeat 26] }
    let reached := ((openedSession {} 0 options startup).run [resets, presses]).1
    let keypad := (reached.handleAll captures.captured captures.events).machine.keypad
    keypad.isPressed 5 = true ∧ ∀ key ∈ [1, 2, 4], keypad.isPressed key = false := by
  intro files options startup resets presses captures reached keypad
  have starts : Headless.Starts (MersenneTwister.seeded 0) files [Text.ascii "r"] options startup :=
    ⟨by decide +kernel, Prod.ext rfl (by decide +kernel)⟩
  obtain ⟨-, follows, -⟩ := held_keys_follow_strokes (MersenneTwister.seeded 0) files
    [Text.ascii "r"] options startup starts {} 0 [resets, presses] captures (by decide +kernel)
  have startedLast : (openedSession {} 0 options startup).StartedLast [resets, presses] [resets]
      [presses] := by
    refine ⟨rfl, .inr ⟨[], resets, rfl, by decide +kernel, by decide⟩,
      ⟨by decide +kernel, ?_⟩, trivial⟩
    exact fun reset => absurd reset.pressed (by decide)
  have held := follows [resets] [presses] startedLast
  refine ⟨(held 5 (by decide)).mpr (by decide), ?_⟩
  simp only [List.forall_mem_cons]
  refine ⟨?_, ?_, ?_, List.forall_mem_nil _⟩
  all_goals
    rw [← Bool.not_eq_true]
    exact mt (held _ (by decide)).mp (by decide)

end Chip8
