import Chip8.Rom
import Chip8.Window.KeyMap
import Chip8.Window.Screen
import Chip8.Window.Speaker

/-!
This file holds what passes between a windowed session and its host: the calls that the session
makes, the events and panel actions that the host hands in, and the ways in which the host fails.
-/

namespace Chip8.Window

/-- Colour channels of a text are counted in tenths. -/
structure Tint where
  red : Nat
  green : Nat
  blue : Nat
  alpha : Nat
deriving DecidableEq

/-- The session asks its host for windows, drawings, widgets and sound. The host starts the one
exchange of samples, which is `heard`, or `unheard` while no device is open. -/
inductive HostCall
  | start (subsystems : Nat)
  | createWindow (title : ByteString) (width height : Int)
  | createRenderer
  | createPanelContext
  | attachPanelPlatform
  | attachPanelRenderer
  | openAudio (rate format channels samples : Nat)
  | pauseAudio (paused : Bool)
  | closeAudio
  | draw (call : DrawCall)
  | beginPanel (title : ByteString)
  | text (content : ByteString)
  | tintedText (tint : Tint) (content : ByteString)
  | slider (label : ByteString) (value lower upper : Int)
  | checkbox (label : ByteString) (checked : Bool)
  | button (label : ByteString)
  | endPanel
  | drawPanel
  | present
  | heard (samples : List Sample)
  | unheard
  | detachPanelRenderer
  | detachPanelPlatform
  | destroyPanelContext
  | destroyRenderer
  | destroyWindow
  | quit
deriving DecidableEq

/-- A host may fail in one of the calls that prepare a session. -/
inductive HostFailure
  | start
  | createWindow
  | createRenderer
  | attachPanelPlatform
  | attachPanelRenderer
  | openAudio
deriving DecidableEq

/-- A host explains each of its failures with the same words. -/
structure Host where
  failure : Option HostFailure := none
  explanation : ByteString := []

/-- A held key repeats its press. -/
inductive Event
  | keyDown (scancode : Scancode)
  | keyRepeat (scancode : Scancode)
  | keyUp (scancode : Scancode)
  | quit
  | other
deriving DecidableEq

/-- The user acts on the widgets of the panel. -/
inductive PanelAction
  | setSpeed (speed : Int)
  | togglePause
  | reset
  | close
deriving DecidableEq

/-- One pass of the session sees one reading of the clock. -/
structure Pass where
  now : Int
  files : Rom.Files
  events : List Event := []
  captured : Bool := false
  actions : List PanelAction := []
  pull : Option Nat := none

end Chip8.Window
