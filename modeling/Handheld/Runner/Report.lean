import Handheld.Machine
import Handheld.Text.Utf8
import Handheld.Runner.Files

/-!
# Run reports

What a run tells about itself: a log, and either a summary or the cause of its
failure. The wording of each is a function of what happened.
-/

set_option autoImplicit false

namespace Handheld.Runner

open Text

/-- Something that a run logs. -/
inductive RunEvent where
  /-- An event inside the machine. -/
  | machine (event : Event)
  /-- What the header of the image says. -/
  | header (header : Header)
  /-- The header does not have the checksum it claims. -/
  | checksumMismatch
  /-- The controller is not the one that the header asks for. -/
  | controllerMismatch (error : CartridgeError)
  /-- A boot image was read. -/
  | bootRom (path : String) (size : Nat)
  /-- A flash cartridge was installed. -/
  | flashCard (path : String)
  /-- The run ended. -/
  | stopped (reason : StopReason)
  /-- The state of the machine at the end. -/
  | state (line : String)
  /-- The dump of used bytes was written. -/
  | instrumentation (path : String)
  deriving DecidableEq, Inhabited

namespace RunEvent

/-- The level of an event. -/
def level : RunEvent → Level
  | .machine event => event.level
  | .checksumMismatch | .controllerMismatch _ => .warn
  | .header _ | .bootRom .. | .flashCard _ | .stopped _ | .state _ | .instrumentation _ => .info

/-- The wording of an event. -/
def message : RunEvent → String
  | .machine event => event.message
  | .header h =>
    "title \"" ++ h.title ++ "\" type 0x" ++ Hex.ofByte h.cartridgeType ++
      " rom size 0x" ++ Hex.ofByte h.romSize ++ " ram size 0x" ++ Hex.ofByte h.ramSize ++
      " color " ++ (if h.color then "true" else "false")
  | .checksumMismatch => "header checksum mismatch"
  | .controllerMismatch error => error.message
  | .bootRom path size => "boot ROM '" ++ path ++ "' (" ++ toString size ++ " bytes)"
  | .flashCard path => "flash card backed by '" ++ path ++ "'"
  | .stopped reason => "stopped: " ++ reason.name
  | .state text => text
  | .instrumentation path => "instrumentation written to '" ++ path ++ "'"

/-- An event with its level, as a log shows it. -/
def line (event : RunEvent) : String := event.level.name ++ " " ++ event.message

end RunEvent

/-- The files that a run reads. -/
inductive FileRole where
  | rom | bootRom | flashImage
  deriving DecidableEq, Inhabited

/-- What a file is for. -/
def FileRole.name : FileRole → String
  | .rom => "ROM"
  | .bootRom => "boot ROM"
  | .flashImage => "flash image"

/-- Why a run failed. -/
inductive RunError where
  /-- A file could not be read. -/
  | unreadable (role : FileRole) (path : String) (cause : FileError)
  /-- The image is not one of a cartridge. -/
  | notACartridge (path : String) (cause : CartridgeError)
  /-- The dump could not be written. -/
  | unwritable (path : String) (cause : FileError)
  deriving DecidableEq, Inhabited

/-- The wording of a failure, with its cause. -/
def RunError.message : RunError → String
  | .unreadable role path cause =>
    "failed to read " ++ role.name ++ " '" ++ path ++ "': " ++ cause.message
  | .notACartridge path cause =>
    "'" ++ path ++ "' is not a cartridge image: " ++ cause.message
  | .unwritable path cause =>
    "failed to write '" ++ path ++ "': " ++ cause.message

/-- How a run ended. -/
inductive Outcome where
  /-- A reason to stop turned up. -/
  | stopped (reason : StopReason)
  /-- A byte that encodes no instruction was met. -/
  | illegalOpcode (opcode : UInt8) (address : UInt16)
  deriving DecidableEq, Inhabited

/-- What a run leaves behind. -/
structure RunSummary where
  /-- How it ended. -/
  outcome : Outcome
  /-- The bytes that left through the serial interface. -/
  serial : Array UInt8
  /-- The state of the machine at the end. -/
  state : String
  /-- The cycle counter at the end. -/
  cycles : UInt64
  deriving DecidableEq, Inhabited

/-- The bytes of the serial interface read as text. -/
def RunSummary.serialText (summary : RunSummary) : String := Utf8.decode summary.serial.toList

end Handheld.Runner
