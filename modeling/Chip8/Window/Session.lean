import Chip8.Boot
import Chip8.Report
import Chip8.Window.Host

/-!
This file holds the windowed session. Each pass takes the events, draws the display once, reports
a halt, shows the panel, and presents the picture.
-/

namespace Chip8.Window

open Text

/-- A session is the machine together with what the window and the panel remember. -/
structure Session where
  options : Options
  machine : Machine
  scheduler : Scheduler
  speaker : Speaker
  active : Bool := true
  paused : Bool := false
  panelShown : Bool := true
  haltReported : Bool := false

namespace Session

/-- A press reaches the keypad unless the panel has the keyboard. A release always does. -/
def handle (captured : Bool) (session : Session) : Event → Session
  | .keyDown scancode =>
      if scancode = escapeScancode then { session with active := false }
      else if scancode = panelScancode then { session with panelShown := !session.panelShown }
      else if captured then session
      else
        match key? scancode with
        | none => session
        | some key => { session with machine := session.machine.keyDown key }
  | .keyRepeat _ => session
  | .keyUp scancode =>
      match key? scancode with
      | none => session
      | some key => { session with machine := session.machine.keyUp key }
  | .quit => { session with active := false }
  | .other => session

def handleAll (session : Session) (captured : Bool) (events : List Event) : Session :=
  events.foldl (handle captured) session

def screenCalls (session : Session) (picture : Display) : List HostCall :=
  (Screen.draw session.options.scale picture).map .draw

/-- A processed frame draws its own picture. A paused or refused pass draws the display as it
stands. -/
def runFrame (session : Session) (now : Int) : Session × List HostCall :=
  if session.paused then
    ({ session with speaker := session.speaker.stop }, session.screenCalls session.machine.display)
  else
    match session.scheduler.tick session.machine now with
    | none => (session, session.screenCalls session.machine.display)
    | some (scheduler, frame) =>
        ({ session with
            scheduler := scheduler
            machine := frame.machine
            speaker := session.speaker.obey frame.tone },
          session.screenCalls frame.picture)

/-- A halt is reported once and silences the speaker. -/
def reportHalt (session : Session) : Session × ByteString :=
  if session.machine.halted && !session.haltReported then
    ({ session with speaker := session.speaker.stop, haltReported := true },
      Report.haltLine upperDigit session.machine)
  else (session, [])

/-- The session ends when its program cannot be booted again. -/
def reset (session : Session) (files : Rom.Files) (now : Int) : Session × ByteString :=
  let (machine, failure) := session.machine.boot files session.options
  let restarted :=
    { session with
      machine := machine
      scheduler := session.scheduler.start now
      haltReported := false }
  match failure with
  | none => (restarted, [])
  | some error => ({ restarted with active := false }, error.message session.options.romPath)

/-- The slider, the checkbox and the close button change the session at once. -/
def adjust (session : Session) : PanelAction → Session
  | .setSpeed speed => { session with scheduler := { session.scheduler with speed := speed } }
  | .togglePause => { session with paused := !session.paused }
  | .close => { session with panelShown := false }
  | .reset => session

/-- The widgets show the values from before the actions of the pass. -/
def widgetCalls (session : Session) : List HostCall :=
  [.beginPanel (ascii "chip8vm (F1)"),
   .text session.options.romPath,
   .slider (ascii "instr/frame") session.scheduler.speed 1 100,
   .checkbox (ascii "Pause") session.paused,
   .button (ascii "Reset")]

def alertTint : Tint := ⟨10, 4, 4, 10⟩

/-- The last line of the panel tells why the machine does not run. -/
def statusCalls (machine : Machine) : List HostCall :=
  match machine.halted, machine.mode with
  | true, _ => [.tintedText alertTint (ascii "Halted: " ++ Fault.name machine.fault)]
  | false, .awaitingKey => [.text (ascii "Waiting for key")]
  | false, .running => []

/-- A hidden panel takes no action. -/
def showPanel (session : Session) (pass : Pass) : Session × List HostCall × ByteString :=
  if session.panelShown then
    let adjusted := pass.actions.foldl adjust session
    let (final, errors) :=
      if pass.actions.contains .reset then adjusted.reset pass.files pass.now else (adjusted, [])
    (final, session.widgetCalls ++ statusCalls final.machine ++ [.endPanel], errors)
  else (session, [], [])

/-- The device pulls its samples after the picture is presented. -/
def playSamples (session : Session) : Option Nat → Session × List HostCall
  | none => (session, [])
  | some count =>
      if session.speaker.deviceOpen then
        let (samples, speaker) := session.speaker.pull count
        ({ session with speaker := speaker }, [.heard samples])
      else (session, [.unheard])

/-- A pass leaves the session, its calls in their order, and its reports. -/
def pass (session : Session) (pass : Pass) : Session × List HostCall × ByteString :=
  let handled := session.handleAll pass.captured pass.events
  let (framed, drawing) := handled.runFrame pass.now
  let (reported, halt) := framed.reportHalt
  let (shown, panel, errors) := reported.showPanel pass
  let (final, sound) := shown.playSamples pass.pull
  (final, drawing ++ panel ++ [.drawPanel, .present] ++ sound, halt ++ errors)

/-- The passes stop when the session is no longer active. -/
def run (session : Session) : List Pass → Session × List (List HostCall) × ByteString
  | [] => (session, [], [])
  | first :: rest =>
      if session.active then
        let (next, calls, errors) := session.pass first
        let (final, others, more) := next.run rest
        (final, calls :: others, errors ++ more)
      else (session, [], [])

end Session

end Chip8.Window
