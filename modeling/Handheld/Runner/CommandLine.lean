import Handheld.Runner.Run

/-!
# The command line

The program prints what the running program sent through its serial interface. Faulty
arguments and failed runs are told on the error stream and by the exit code.
-/

set_option autoImplicit false

namespace Handheld.Runner

/-- How the program is called. -/
def usage : String :=
  "usage: cellboy [-o dump] [-b boot.bin] [-e sdcard.img] [-c cycles] rom.gb"

/-- What a call of the program leaves behind. -/
structure Exit where
  /-- The exit code. -/
  code : UInt8
  /-- What is printed. -/
  output : Array UInt8 := #[]
  /-- What is told on the error stream. -/
  errors : String := ""
  deriving DecidableEq, Inhabited

/-- Calls the program with a list of arguments. -/
def execute {m : Type → Type} [Monad m] (files : FileAccess m) (arguments : List String) :
    m Exit := do
  match parseArguments arguments with
  | .error error => return { code := 2, errors := error.message ++ "\n" ++ usage ++ "\n" }
  | .ok options =>
    match ← run files options with
    | (.ok summary, _) => return { code := 0, output := summary.serial }
    | (.error error, _) => return { code := 1, errors := "cellboy: " ++ error.message ++ "\n" }

end Handheld.Runner
