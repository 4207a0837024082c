import Handheld.Runner.Options
import Handheld.Runner.Report

/-!
# Runs

A run loads the files that its options name, lets the machine go until it stops,
and writes the dump of used bytes. It works on any `FileAccess`.
-/

set_option autoImplicit false

namespace Handheld.Runner

/-- A computation that logs and may fail. -/
abbrev RunM (m : Type → Type) := ExceptT RunError (StateT (Array RunEvent) m)

variable {m : Type → Type} [Monad m]

/-- Logs an event. -/
def record (event : RunEvent) : RunM m Unit :=
  modify fun log => log.push event

/-- Reads a file that a run needs. -/
def readFile (files : FileAccess m) (role : FileRole) (path : String) : RunM m (Array UInt8) := do
  match ← (files.read path : m _) with
  | .ok bytes => return bytes
  | .error cause => throw (.unreadable role path cause)

/-- What there is to say about a cartridge that has been read. -/
def cartridgeEvents (cartridge : Cartridge) : List RunEvent :=
  let header := cartridge.header
  [.header header] ++
    (if header.checksumOk then [] else [.checksumMismatch]) ++
    (match cartridge.checkController with
      | .ok () => []
      | .error error => [.controllerMismatch error])

/-- Builds the machine that the options describe. -/
def load (files : FileAccess m) (options : RunOptions) : RunM m Machine := do
  let image ← readFile files .rom options.rom
  let cartridge ← match Cartridge.ofImage image with
    | .ok cartridge => pure cartridge
    | .error cause => throw (.notACartridge options.rom cause)
  (cartridgeEvents cartridge).forM record
  let boot ← match options.bootRom with
    | some path => do
      let boot ← readFile files .bootRom path
      record (.bootRom path boot.size)
      pure boot
    | none => pure #[]
  let machine := (Machine.assemble cartridge boot).reset
  match options.flashImage with
  | some path => do
    let image ← readFile files .flashImage path
    record (.flashCard path)
    return machine.install (.flash { image })
  | none => return machine

/-- Lets a machine go. The events of the machine are logged, and after them how the
run ended. -/
def letGo (machine : Machine) (limit : Option UInt64) : Machine × Outcome × List RunEvent :=
  match machine.run limit with
  | (machine, .ok reason) =>
    (machine, .stopped reason,
      (machine.journal.toList.map .machine) ++ [.stopped reason])
  | (machine, .error (.illegalOpcode opcode address)) =>
    let machine := machine.recordFault (.illegalOpcode opcode address)
    (machine, .illegalOpcode opcode address, machine.journal.toList.map .machine)

/-- Writes the dump of used bytes. -/
def writeDump (files : FileAccess m) (machine : Machine) (path : String) : RunM m Unit := do
  match ← (files.write path (DumpRecord.writeAll machine.dump).toArray : m _) with
  | .ok () => record (.instrumentation path)
  | .error cause => throw (.unwritable path cause)

/-- A whole run. -/
def runWith (files : FileAccess m) (options : RunOptions) : RunM m RunSummary := do
  let machine ← load files options
  let (machine, outcome, events) := letGo machine options.cycleLimit
  events.forM record
  let state := machine.stateLine
  record (.state state)
  match options.instrumentation with
  | some path => writeDump files machine path
  | none => pure ()
  return { outcome, serial := machine.serialOutput, state, cycles := machine.cpu.cycles }

/-- A whole run, with its log. -/
def run (files : FileAccess m) (options : RunOptions) :
    m (Except RunError RunSummary × Array RunEvent) :=
  ((runWith files options).run).run #[]

end Handheld.Runner
