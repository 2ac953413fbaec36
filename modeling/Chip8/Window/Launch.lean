import Chip8.Window.Session

/-!
This file holds the life of a windowed session: the host is prepared step by step, the passes are
run, and everything that was prepared is taken down again.
-/

namespace Chip8.Window

open Text

/-- A launched program leaves its status, its reports, and its calls before, during and after the
passes. -/
structure Outcome where
  status : Nat
  errors : ByteString
  setup : List HostCall := []
  passes : List (List HostCall) := []
  teardown : List HostCall := []

/-- The timer, audio and video subsystems are needed. -/
def subsystems : Nat := 1 + 16 + 32

/-- Each preparation makes one call. A failed call is explained, and everything prepared before it
is taken down. -/
structure Preparation where
  call : HostCall
  failure : Option HostFailure
  complaint : ByteString
  undo : List HostCall

/-- The window has the size of the scaled picture. -/
def preparations (host : Host) (scale : Int) : List Preparation :=
  [{ call := .start subsystems
     failure := some .start
     complaint := ascii "SDL Error: " ++ host.explanation ++ ascii "\n"
     undo := [] },
   { call := .createWindow (ascii "chip8vm") (Display.width * scale) (Display.height * scale)
     failure := some .createWindow
     complaint := ascii "SDL_CreateWindow failed: " ++ host.explanation ++ ascii "\n"
     undo := [.quit] },
   { call := .createRenderer
     failure := some .createRenderer
     complaint := ascii "SDL_CreateRenderer failed: " ++ host.explanation ++ ascii "\n"
     undo := [.destroyWindow, .quit] },
   { call := .createPanelContext
     failure := none
     complaint := []
     undo := [] },
   { call := .attachPanelPlatform
     failure := some .attachPanelPlatform
     complaint := ascii "ImGui_ImplSDL2_InitForSDLRenderer failed\n"
     undo := [.destroyRenderer, .destroyWindow, .quit] },
   { call := .attachPanelRenderer
     failure := some .attachPanelRenderer
     complaint := ascii "ImGui_ImplSDLRenderer2_Init failed\n"
     undo := [.detachPanelPlatform, .destroyRenderer, .destroyWindow, .quit] }]

/-- A call fails when the host has that failure. -/
def Preparation.fails (preparation : Preparation) (host : Host) : Bool :=
  preparation.failure.isSome && preparation.failure == host.failure

/-- The calls of the preparations come with the complaint that ended them, if there is one. -/
def prepare (host : Host) : List Preparation → List HostCall × Option ByteString
  | [] => ([], none)
  | first :: rest =>
      if first.fails host then (first.call :: first.undo, some first.complaint)
      else
        let (calls, complaint) := prepare host rest
        (first.call :: calls, complaint)

/-- A host without a failure lets every call through. -/
theorem prepare_of_no_failure {host : Host} (sound : host.failure = none)
    (listed : List Preparation) : prepare host listed = (listed.map Preparation.call, none) := by
  induction listed with
  | nil => rfl
  | cons first rest inductionHypothesis =>
      have passes : first.fails host = false := by
        cases possible : first.failure <;> simp [Preparation.fails, possible, sound]
      simp [prepare, passes, inductionHypothesis]

namespace Speaker

def openCall : HostCall :=
  .openAudio sampleRate sampleFormat channelCount bufferLength

/-- A device that opens is started at once. -/
def openDevice (speaker : Speaker) (host : Host) : Speaker × List HostCall × ByteString :=
  if host.failure = some .openAudio then
    ({ speaker with deviceOpen := false }, [openCall],
      ascii "SDL_OpenAudioDevice failed: " ++ host.explanation ++ ascii "\n")
  else ({ speaker with deviceOpen := true }, [openCall, .pauseAudio false], [])

/-- A closed device is not closed again. -/
def closeDevice (speaker : Speaker) : Speaker × List HostCall :=
  if speaker.deviceOpen then ({ speaker with deviceOpen := false }, [.closeAudio])
  else (speaker, [])

end Speaker

/-- A session without a device is silent and goes on. -/
def silenceWarning (speaker : Speaker) : ByteString :=
  if speaker.deviceOpen then [] else ascii "[chip8] no audio device, running silent\n"

def teardownCalls : List HostCall :=
  [.detachPanelRenderer, .detachPanelPlatform, .destroyPanelContext, .destroyRenderer,
   .destroyWindow, .quit]

/-- The scheduler starts at the first reading of the clock. -/
def Session.opened (options : Options) (machine : Machine) (speaker : Speaker)
    (startTime : Int) : Session where
  options := options
  machine := machine
  scheduler := { speed := options.speed, last := startTime }
  speaker := speaker

/-- The machine is booted before the host is asked for anything. -/
def launch (generator : MersenneTwister) (files : Rom.Files) (arguments : List ByteString)
    (host : Host) (startTime : Int) (passes : List Pass) : Outcome :=
  match Options.parse {} arguments with
  | (_, some error) => { status := 1, errors := error.report }
  | (options, none) =>
      match (Machine.fresh generator).boot files options with
      | (_, some error) => { status := 1, errors := error.message options.romPath }
      | (machine, none) =>
          match prepare host (preparations host options.scale) with
          | (calls, some complaint) => { status := 1, errors := complaint, setup := calls }
          | (calls, none) =>
              let (speaker, audio, warning) := ({} : Speaker).openDevice host
              let opened := Session.opened options machine speaker startTime
              let (final, passed, reports) := opened.run passes
              { status := 0
                errors := warning ++ silenceWarning speaker ++ reports
                setup := calls ++ audio
                passes := passed
                teardown := final.speaker.closeDevice.2 ++ teardownCalls }

end Chip8.Window
