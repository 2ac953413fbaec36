import Chip8.Main
import Chip8.Window.Launch
import Chip8.Proofs.Place
import Chip8.Proofs.Footprint
import Chip8.Proofs.Cycle
import Chip8.Proofs.System
import Chip8.Proofs.Trail
import Chip8.Proofs.Resting
import Chip8.Proofs.ControlState
import Chip8.Proofs.Digits
import Chip8.Proofs.Verdict
import Chip8.Proofs.FaultReport
import Chip8.Proofs.Halt
import Chip8.Proofs.KeyWait
import Chip8.Proofs.CallReturn
import Chip8.Proofs.ProgramCounter
import Chip8.Proofs.TextDivision
import Chip8.Proofs.HexFormat
import Chip8.Proofs.HexWriting
import Chip8.Proofs.Numerals
import Chip8.Proofs.CommandLine
import Chip8.Proofs.Startup
import Chip8.Proofs.SessionStages
import Chip8.Proofs.SessionReset
import Chip8.Proofs.HostAgreement
import Chip8.Proofs.HaltTone
import Chip8.Proofs.Ambient
import Chip8.Proofs.FrameBoundary
import Chip8.Proofs.FrameRun
import Chip8.Proofs.HeadlessRun
import Chip8.Proofs.CheckedAccess
import Chip8.Proofs.AccessBounds
import Chip8.Proofs.Assignment
import Chip8.Proofs.InstructionTable
import Chip8.Proofs.TableConformance
import Chip8.Proofs.Cadence
import Chip8.Proofs.TimerCount
import Chip8.Proofs.Recurrence
import Chip8.Proofs.RandomStream
import Chip8.Proofs.Presentation
import Chip8.Proofs.NumeralWriting
import Chip8.Proofs.Legibility
import Chip8.Proofs.LosslessReport
import Chip8.Proofs.Chronicle
import Chip8.Proofs.HaltLines
import Chip8.Proofs.HeldKeys
import Chip8.Proofs.Pause
import Chip8.Proofs.Toggles
import Chip8.Proofs.Sprite
import Chip8.Proofs.Redraw
import Chip8.Proofs.Refusal
import Chip8.Proofs.CarryFlag
import Chip8.Proofs.Listing
import Chip8.Proofs.Loading
import Chip8.Proofs.PixelParity
import Chip8.Proofs.Tiling
import Chip8.Proofs.SteadyTone
import Chip8.Proofs.SavedRegisters
import Chip8.Proofs.NumeralScan
