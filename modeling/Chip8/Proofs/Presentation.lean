import Chip8.Proofs.HeadlessRun
import Chip8.Proofs.SessionReset
import Mathlib.Data.List.Nodup

/-!
This file holds the pictures of a windowed session. Between two presentations the display is drawn
once and completely, whichever way the pass takes, and nothing else draws on the screen.
-/

namespace Chip8.Window

/-- Some calls draw on the screen. -/
def HostCall.drawn? : HostCall → Option DrawCall
  | .draw call => some call
  | _ => none

/-- A call may neither draw on the screen nor present it. -/
def HostCall.Offscreen : HostCall → Prop
  | .draw _ => False
  | .present => False
  | _ => True

/-- The calls clear the screen and fill one square for each pixel that is not stored as zero, in some
order. -/
def Paints (scale : Int) (display : Display) (calls : List HostCall) : Prop :=
  ∃ cells : List (Nat × Nat), cells.Nodup ∧
    (∀ column row, (column, row) ∈ cells ↔
      column < 64 ∧ row < 32 ∧ display.pixels.toList.getD (64 * row + column) 0 ≠ 0) ∧
    calls.filterMap HostCall.drawn? =
      [.color 0 0 0 255, .clear, .color 230 230 230 255] ++
        cells.map fun cell => .fill ⟨cell.1 * scale, cell.2 * scale, scale⟩

namespace Screen

/-- The lit pixels are listed row by row. -/
def litCells (display : Display) : List (Nat × Nat) :=
  (List.range Display.height).flatMap fun row =>
    (litColumns display row).map fun column => (column, row)

theorem mem_litCells {display : Display} {column row : Nat} :
    (column, row) ∈ litCells display ↔
      column < Display.width ∧ row < Display.height ∧ display.lit column row = true := by
  simp only [litCells, litColumns, List.mem_flatMap, List.mem_map, List.mem_filter, List.mem_range,
    Prod.mk.injEq]
  constructor
  · rintro ⟨other, inside, found, ⟨within, lit⟩, rfl, rfl⟩
    exact ⟨within, inside, lit⟩
  · intro ⟨within, inside, lit⟩
    exact ⟨row, inside, column, ⟨within, lit⟩, rfl, rfl⟩

/-- Two rows have no cell in common. -/
theorem nodup_litCells (display : Display) : (litCells display).Nodup := by
  refine List.nodup_flatMap.mpr ⟨?_, ?_⟩
  · intro row _
    exact (List.nodup_range.filter _).map fun _ _ same => congrArg Prod.fst same
  · refine List.nodup_range.imp ?_
    intro first second apart cell inFirst inSecond
    obtain ⟨_, _, rfl⟩ := List.mem_map.mp inFirst
    obtain ⟨_, _, same⟩ := List.mem_map.mp inSecond
    exact apart (congrArg Prod.snd same).symm

theorem squares_eq (scale : Int) (display : Display) :
    squares scale display =
      (litCells display).map fun cell => ⟨cell.1 * scale, cell.2 * scale, scale⟩ := by
  simp only [squares, litCells, List.map_flatMap, List.map_map]
  rfl

end Screen

theorem mem_drawn {calls : List HostCall} {call : DrawCall} :
    call ∈ calls.filterMap HostCall.drawn? ↔ .draw call ∈ calls := by
  rw [List.mem_filterMap]
  constructor
  · rintro ⟨found, member, drawn⟩
    cases found with
    | draw other =>
        obtain rfl := Option.some.inj drawn
        exact member
    | _ => exact nomatch drawn
  · exact fun member => ⟨_, member, rfl⟩

section Offscreen

variable {calls : List HostCall} (offscreen : ∀ call ∈ calls, call.Offscreen)

include offscreen

theorem drawn_of_offscreen : calls.filterMap HostCall.drawn? = [] := by
  rw [List.filterMap_eq_nil_iff]
  intro call member
  have out := offscreen call member
  cases call with
  | draw call => exact out.elim
  | _ => rfl

theorem present_notMem_of_offscreen : HostCall.present ∉ calls :=
  fun member => offscreen .present member

theorem splitOn_of_offscreen : calls.splitOn .present = [calls] :=
  List.splitOn_eq_singleton (present_notMem_of_offscreen offscreen)

theorem drawn_getLast_of_offscreen {last : List HostCall} (found : [calls].getLast? = some last) :
    last.filterMap HostCall.drawn? = [] := by
  obtain rfl : calls = last := Option.some.inj found
  exact drawn_of_offscreen offscreen

end Offscreen

namespace Session

variable (session : Session)

theorem drawn_screenCalls (picture : Display) :
    (session.screenCalls picture).filterMap HostCall.drawn? =
      Screen.draw session.options.scale picture := by
  rw [screenCalls, List.filterMap_map]
  exact List.filterMap_some

theorem offscreen_showPanel (pass : Pass) :
    ∀ call ∈ (session.showPanel pass).2.1, call.Offscreen := by
  unfold showPanel
  split
  · simp only [widgetCalls, statusCalls]
    split <;> simp [HostCall.Offscreen]
  · simp

theorem offscreen_playSamples (pull : Option Nat) :
    ∀ call ∈ (session.playSamples pull).2, call.Offscreen := by
  unfold playSamples
  split
  · simp
  · split <;> simp [HostCall.Offscreen]

/-- The stretch of a pass belongs to the display as it is behind the events and the frame. -/
structure Shows (scale : Int) (pass : Pass) (stretch : List HostCall) : Prop where
  machine : (session.beforePanel pass).machine = session.current pass
  painted : Paints scale (session.current pass).display stretch

/-- A pass presents one picture. What stands before its calls may not draw. -/
theorem exists_stretch (pass : Pass) :
    ∃ before after, (session.pass pass).2.1 = before ++ .present :: after ∧
      HostCall.present ∉ before ∧ (∀ call ∈ after, call.Offscreen) ∧
      ∀ lead : List HostCall, (∀ call ∈ lead, call.Offscreen) →
        session.Shows session.options.scale pass (lead ++ before) := by
  let drawing := session.screenCalls (session.beforePanel pass).machine.display
  let panel := ((session.beforePanel pass).showPanel pass).2.1 ++ [.drawPanel]
  have shown : ∀ call ∈ panel, call.Offscreen := by
    have widgets := (session.beforePanel pass).offscreen_showPanel pass
    exact List.forall_mem_append.mpr ⟨widgets, List.forall_mem_singleton.mpr trivial⟩
  have current := session.machine_beforePanel pass
  refine ⟨drawing ++ panel, _, ?_, ?_,
    (session.presented pass).offscreen_playSamples pass.pull, ?_⟩
  · simp [pass_calls, drawing, panel]
  · have unpresented := present_notMem_of_offscreen shown
    simp [drawing, screenCalls, unpresented]
  · intro lead offscreen
    refine ⟨current, Screen.litCells (session.current pass).display, Screen.nodup_litCells _,
      fun column row => ?_, ?_⟩
    · rw [← Display.lit_iff_stored]
      exact Screen.mem_litCells
    have drawn : drawing.filterMap HostCall.drawn? = _ := session.drawn_screenCalls _
    rw [List.filterMap_append, List.filterMap_append, drawn_of_offscreen offscreen,
      drawn_of_offscreen shown, drawn, current, Screen.draw, Screen.squares_eq, List.map_map]
    simp only [List.nil_append, List.append_nil]
    rfl

/-- The stretches end at the presentations of a run, one for each pass, and nothing is drawn behind
the last presentation. -/
structure Presented (scale : Int) (passes : List Pass) (stretches : List (List HostCall)) :
    Prop where
  counted : stretches.length = (session.run passes).2.1.length + 1
  undrawn : ∀ last, stretches.getLast? = some last → last.filterMap HostCall.drawn? = []
  shown : ∀ number < (session.run passes).2.1.length, ∃ pass stretch,
    passes[number]? = some pass ∧ stretches[number]? = some stretch ∧
      (session.run (passes.take number)).1.Shows scale pass stretch

variable {session} {lead trail : List HostCall}

theorem presented_of_no_pass {passes : List Pass}
    (leading : ∀ call ∈ lead, call.Offscreen) (trailing : ∀ call ∈ trail, call.Offscreen)
    (scale : Int) (none : (session.run passes).2.1 = []) :
    session.Presented scale passes
      ((lead ++ (session.run passes).2.1.flatten ++ trail).splitOn .present) := by
  have offscreen : ∀ call ∈ lead ++ trail, call.Offscreen :=
    List.forall_mem_append.mpr ⟨leading, trailing⟩
  rw [none, List.flatten_nil, List.append_nil, splitOn_of_offscreen offscreen]
  constructor
  case counted => simp [none]
  case undrawn => exact fun _ => drawn_getLast_of_offscreen offscreen
  case shown => simp [none]

/-- The calls of the first pass end one stretch and lead into the next one. -/
theorem Presented.cons {first : Pass} {rest : List Pass} {stretch : List HostCall}
    {others : List (List HostCall)} {scale : Int} (active : session.active = true)
    (shows : session.Shows scale first stretch)
    (presented : (session.pass first).1.Presented scale rest others) :
    session.Presented scale (first :: rest) (stretch :: others) := by
  have run (passes : List Pass) :
      (session.run (first :: passes)).1 = ((session.pass first).1.run passes).1 ∧
        (session.run (first :: passes)).2.1 =
          (session.pass first).2.1 :: ((session.pass first).1.run passes).2.1 := by
    simp [Session.run, active]
  constructor
  case counted => rw [(run rest).2, List.length_cons, List.length_cons, presented.counted]
  case undrawn =>
    intro last found
    have nonempty : others ≠ [] := by
      apply List.ne_nil_of_length_pos
      rw [presented.counted]
      exact Nat.succ_pos _
    rw [List.getLast?_cons_of_ne_nil nonempty] at found
    exact presented.undrawn last found
  case shown =>
    intro number within
    rw [(run rest).2, List.length_cons] at within
    cases number with
    | zero => exact ⟨first, stretch, rfl, rfl, shows⟩
    | succ number =>
        obtain ⟨pass, later, listed, found, paints⟩ :=
          presented.shown number (Nat.lt_of_succ_lt_succ within)
        refine ⟨pass, later, listed, found, ?_⟩
        rw [List.take_succ_cons, (run _).1]
        exact paints

theorem presented_run (passes : List Pass) (leading : ∀ call ∈ lead, call.Offscreen)
    (trailing : ∀ call ∈ trail, call.Offscreen) :
    session.Presented session.options.scale passes
      ((lead ++ (session.run passes).2.1.flatten ++ trail).splitOn .present) := by
  induction passes generalizing session lead with
  | nil => exact presented_of_no_pass leading trailing _ rfl
  | cons first rest inductionHypothesis =>
      cases active : session.active with
      | false => exact presented_of_no_pass leading trailing _ (by simp [run, active])
      | true =>
          obtain ⟨before, after, listed, unpresented, behind, shows⟩ :=
            session.exists_stretch first
          have divided : (lead ++ (session.run (first :: rest)).2.1.flatten ++ trail).splitOn
                .present =
              (lead ++ before) ::
                (after ++ ((session.pass first).1.run rest).2.1.flatten ++ trail).splitOn
                  .present := by
            have absent : HostCall.present ∉ lead ++ before := by
              simp [present_notMem_of_offscreen leading, unpresented]
            rw [← List.splitOn_append_cons_self_of_not_mem absent]
            simp [run, active, listed]
          rw [divided]
          apply Presented.cons active (shows lead leading)
          rw [← session.options_pass first]
          exact inductionHypothesis behind

end Session

theorem offscreen_prepare (host : Host) {listed : List Preparation}
    (offscreen : ∀ preparation ∈ listed,
      preparation.call.Offscreen ∧ ∀ call ∈ preparation.undo, call.Offscreen) :
    ∀ call ∈ (prepare host listed).1, call.Offscreen := by
  induction listed with
  | nil => simp [prepare]
  | cons first rest inductionHypothesis =>
      obtain ⟨here, later⟩ := List.forall_mem_cons.mp offscreen
      rw [prepare]
      split
      · exact List.forall_mem_cons.mpr here
      · exact List.forall_mem_cons.mpr ⟨here.1, inductionHypothesis later⟩

theorem offscreen_preparations (host : Host) (scale : Int) :
    ∀ preparation ∈ preparations host scale,
      preparation.call.Offscreen ∧ ∀ call ∈ preparation.undo, call.Offscreen := by
  simp [preparations, HostCall.Offscreen]

theorem offscreen_openDevice (speaker : Speaker) (host : Host) :
    ∀ call ∈ (speaker.openDevice host).2.1, call.Offscreen := by
  unfold Speaker.openDevice
  split <;> simp [Speaker.openCall, HostCall.Offscreen]

theorem offscreen_teardown (speaker : Speaker) :
    ∀ call ∈ speaker.closeDevice.2 ++ teardownCalls, call.Offscreen := by
  unfold Speaker.closeDevice
  split <;> simp [teardownCalls, HostCall.Offscreen]

/-- A program that starts on a host that is prepared opens this session. -/
def openedSession (host : Host) (startTime : Int) (options : Options) (startup : Machine) : Session :=
  Session.opened options startup (({} : Speaker).openDevice host).1 startTime

/-- A launch is refused before its first pass, or it runs an opened session. Nothing is drawn outside
the passes. -/
theorem launch_cases (generator : MersenneTwister) (files : Rom.Files)
    (arguments : List ByteString) (host : Host) (startTime : Int) (passes : List Pass) :
    let outcome := launch generator files arguments host startTime passes
    (∀ call ∈ outcome.setup, call.Offscreen) ∧ (∀ call ∈ outcome.teardown, call.Offscreen) ∧
      (outcome.passes = [] ∨ ∃ options startup,
        Headless.Starts generator files arguments options startup ∧
          outcome.passes = ((openedSession host startTime options startup).run passes).2.1) := by
  intro outcome
  have prepared (options : Options) :=
    offscreen_prepare host (offscreen_preparations host options.scale)
  simp only [outcome, launch]
  split
  · exact ⟨nofun, nofun, .inl rfl⟩
  · rename_i options accepted
    split
    · exact ⟨nofun, nofun, .inl rfl⟩
    · rename_i startup booted
      have calls := prepared options
      split
      · rename_i ends
        rw [ends] at calls
        exact ⟨calls, nofun, .inl rfl⟩
      · rename_i ends
        rw [ends] at calls
        refine ⟨?_, offscreen_teardown _, .inr ⟨options, startup, ⟨accepted, booted⟩, rfl⟩⟩
        exact List.forall_mem_append.mpr ⟨calls, offscreen_openDevice {} host⟩

end Chip8.Window

namespace Chip8

open Text Window

/-- The calls of a launch are divided at its presentations. Every stretch that ends in a presentation
paints the display once, as it stands behind the events and the frame of its pass, and nothing is
drawn behind the last presentation. -/
theorem every_present_shows_current_picture (generator : MersenneTwister) (files : Rom.Files)
    (arguments : List ByteString) (host : Host) (startTime : Int) (passes : List Pass) :
    let outcome := launch generator files arguments host startTime passes
    let stretches :=
      (outcome.setup ++ outcome.passes.flatten ++ outcome.teardown).splitOn .present
    stretches.length = outcome.passes.length + 1 ∧
      (∀ last, stretches.getLast? = some last → last.filterMap HostCall.drawn? = []) ∧
      ∀ number < outcome.passes.length, ∃ options startup pass stretch,
        Headless.Starts generator files arguments options startup ∧
          passes[number]? = some pass ∧ stretches[number]? = some stretch ∧
          ((openedSession host startTime options startup).run (passes.take number)).1.Shows
            options.scale pass stretch := by
  intro outcome stretches
  obtain ⟨leading, trailing, refused | ⟨options, startup, starts, passed⟩⟩ :=
    launch_cases generator files arguments host startTime passes
  · have passed : outcome.passes = [] := refused
    have offscreen : ∀ call ∈ outcome.setup ++ outcome.teardown, call.Offscreen :=
      List.forall_mem_append.mpr ⟨leading, trailing⟩
    have whole : stretches = [outcome.setup ++ outcome.teardown] := by
      simp only [stretches, passed, List.flatten_nil, List.append_nil]
      exact splitOn_of_offscreen offscreen
    rw [whole, passed]
    exact ⟨rfl, fun _ => drawn_getLast_of_offscreen offscreen, nofun⟩
  · let opened := openedSession host startTime options startup
    have passed : outcome.passes = (opened.run passes).2.1 := passed
    have presented : opened.Presented options.scale passes
        ((outcome.setup ++ (opened.run passes).2.1.flatten ++ outcome.teardown).splitOn .present) :=
      Session.presented_run passes leading trailing
    rw [← passed] at presented
    refine ⟨?_, presented.undrawn, ?_⟩
    · rw [passed]
      exact presented.counted
    · intro number within
      rw [passed] at within
      obtain ⟨pass, stretch, listed, found, shows⟩ := presented.shown number within
      exact ⟨options, startup, pass, stretch, starts, listed, found, shows⟩

/-- The first frame of a launch draws one row of a glyph, and its four pixels are presented. -/
theorem every_present_shows_drawn_row :
    let files := Rom.Files.holding drawnReturn
    let arguments := [ascii "r", ascii "--scale", ascii "3"]
    let outcome := launch (MersenneTwister.seeded 0) files arguments {} 0
      [{ now := 20000000, files := files }]
    let stretches :=
      (outcome.setup ++ outcome.passes.flatten ++ outcome.teardown).splitOn .present
    stretches.length = 2 ∧ ∃ stretch, stretches[0]? = some stretch ∧
      (stretch.filterMap HostCall.drawn?).count .clear = 1 ∧
      .draw (.fill ⟨9, 0, 3⟩) ∈ stretch ∧ .draw (.fill ⟨12, 0, 3⟩) ∉ stretch := by
  intro files arguments outcome stretches
  let passes : List Pass := [{ now := 20000000, files := files }]
  have one : outcome.passes.length = 1 := by decide +kernel
  obtain ⟨divided, -, shown⟩ :=
    every_present_shows_current_picture (MersenneTwister.seeded 0) files arguments {} 0 passes
  obtain ⟨options, startup, pass, stretch, starts, listed, found, shows⟩ :=
    shown 0 (by rw [one]; decide)
  obtain rfl : { now := 20000000, files := files } = pass := Option.some.inj listed
  have accepted : Options.parse {} arguments =
      ({ romPath := ascii "r", scale := 3 }, none) := by decide +kernel
  obtain rfl := (Prod.mk.inj (accepted.symm.trans starts.accepted)).1
  obtain rfl : _ = startup := congrArg Prod.fst starts.booted
  obtain ⟨cells, -, lit, drawn⟩ := shows.painted
  obtain ⟨bright, dark⟩ : (3, 0) ∈ cells ∧ (4, 0) ∉ cells := by
    rw [lit, lit]
    decide +kernel
  refine ⟨?divided, stretch, found, ?cleared, ?bright, ?dark⟩
  case divided => exact divided.trans (by rw [one])
  case cleared =>
    have filled : (cells.map fun cell => DrawCall.fill ⟨cell.1 * 3, cell.2 * 3, 3⟩).count .clear = 0 :=
      List.count_eq_zero.mpr (by simp)
    rw [drawn, List.count_append]
    exact congrArg (1 + ·) filled
  case bright =>
    rw [← mem_drawn, drawn]
    exact List.mem_append_right _ (List.mem_map.mpr ⟨_, bright, rfl⟩)
  case dark =>
    rw [← mem_drawn, drawn]
    intro member
    obtain ⟨⟨column, row⟩, listed, same⟩ : ∃ cell ∈ cells,
        DrawCall.fill ⟨cell.1 * 3, cell.2 * 3, 3⟩ = .fill ⟨12, 0, 3⟩ := by
      simpa using member
    simp only [DrawCall.fill.injEq, Square.mk.injEq] at same
    obtain ⟨rfl, rfl⟩ : column = 4 ∧ row = 0 := by omega
    exact dark listed

end Chip8
