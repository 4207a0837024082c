import Handheld.Runner.CommandLine

/-!
# The program

Connects the command line to the files and streams of the operating system.
-/

set_option autoImplicit false

namespace Handheld.Runner

/-- The number and the text that come with an error of the operating system. -/
def FileError.ofIO (error : IO.Error) : FileError :=
  match error with
  | .noFileOrDirectory _ code details => named code details
  | .permissionDenied _ code details => named code details
  | .inappropriateType _ code details => named code details
  | .resourceExhausted _ code details => named code details
  | .invalidArgument _ code details => named code details
  | .alreadyExists _ code details => named code details
  | .noSuchThing _ code details => named code details
  | .unsupportedOperation code details => named code details
  | .hardwareFault code details => named code details
  | .otherError code details => named code details
  | error => .other error.toString
where
  /-- The error with a number, which some calls report negated; the numbers of common
  errors have a fixed text. -/
  named (reported : UInt32) (text : String) : FileError :=
    let code := if reported < 0x80000000 then reported else 0 - reported
    if code = 2 then .notFound
    else if code = 13 then .system 13 "Permission denied"
    else if code = 20 then .notDirectory
    else if code = 21 then .isDirectory
    else if code = 36 then .nameTooLong
    else .system code.toNat text

/-- Turns an action that may fail into one that tells how it failed. -/
def guarded {α : Type} (action : IO α) : IO (Except FileError α) := do
  try
    return .ok (← action)
  catch error =>
    return .error (.ofIO error)

/-- Access to the files of the operating system. -/
def systemFiles : FileAccess IO where
  read path := guarded do return (← IO.FS.readBinFile path).data
  write path bytes := guarded (IO.FS.writeBinFile path ⟨bytes⟩)

end Handheld.Runner

/-- Runs the program. -/
def main (arguments : List String) : IO UInt32 := do
  let exit ← Handheld.Runner.execute Handheld.Runner.systemFiles arguments
  let stdout ← IO.getStdout
  stdout.write ⟨exit.output⟩
  stdout.flush
  IO.eprint exit.errors
  return exit.code.toUInt32
