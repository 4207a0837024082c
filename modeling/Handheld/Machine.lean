import Handheld.Cell
import Handheld.Hardware.Dump
import Handheld.System.Execute
import Handheld.System.Interrupts

/-!
# The machine

A machine is a processor wired to the hardware. It advances by steps, one
instruction or four idle cycles each; after every step the devices catch up. Runs
of steps end when someone asked to quit, when a number of cycles has gone by, or
at a byte that encodes no instruction.
-/

set_option autoImplicit false

namespace Handheld

/-- Why a step could not be made. -/
inductive StepError where
  /-- The byte at the program counter encodes no instruction. -/
  | illegalOpcode (opcode : UInt8) (address : UInt16)
  deriving DecidableEq, Inhabited

/-- The wording of a step error. -/
def StepError.message : StepError → String
  | .illegalOpcode opcode address =>
    "illegal opcode 0x" ++ Text.Hex.ofByte opcode ++ " at 0x" ++ Text.Hex.ofWord address

/-- Why a run ended. -/
inductive StopReason where
  /-- Someone asked to quit, or the cartridge asked to be started anew. -/
  | quit
  /-- The cycles granted have gone by. -/
  | cycleLimit
  deriving DecidableEq, Inhabited

/-- The name of a reason to stop. -/
def StopReason.name : StopReason → String
  | .quit => "Quit"
  | .cycleLimit => "CycleLimit"

/-- The processor and everything it is wired to. -/
structure Machine extends System Hardware where
  /-- Whether someone asked to quit. -/
  quit : Bool := false
  /-- Whether the last step finished a frame. -/
  frameDone : Bool := false

namespace Machine

/-- A machine with a cartridge and a boot image. It has to be reset before it runs. -/
def assemble (cartridge : Cartridge) (boot : Array UInt8) : Machine :=
  { bus := .assemble cartridge boot }

/-- Power on. Without a boot program the machine is left as a finished boot program
would have left it. -/
def reset (m : Machine) : Machine :=
  let ⟨⟨_, bus, ledger, journal⟩, _, frameDone⟩ := m
  let bus := bus.powerCycle
  let cpu : Cpu := { color := bus.color }
  let ledger := ledger.powerCycle
  if bus.hasBootProgram then
    { cpu, bus, ledger, journal, frameDone }
  else
    { cpu := cpu.postBoot, bus := bus.postBoot, ledger, journal, frameDone }

/-- Applies a function to the processor and what it is wired to. -/
def within (m : Machine) (f : System Hardware → System Hardware) : Machine :=
  let ⟨system, quit, frameDone⟩ := m
  ⟨f system, quit, frameDone⟩

/-- What reading an address yields. -/
def read (m : Machine) (address : UInt16) : UInt8 := m.load (m.resolve address)

/-- Writes a byte that comes from nowhere in particular to an address. -/
def writeAt (m : Machine) (address : UInt16) (value : UInt8) : Machine :=
  m.within fun s => s.write (s.resolve address) value

/-- The cell at a place, registers included, if there is one. -/
def cell? (m : Machine) (place : Place) : Option Cell :=
  (m.byte? place).map fun value =>
    { identity := place.identity, value, note := m.ledger.note place }

/-- Decodes the instruction at an address. -/
def decodeAt (m : Machine) (address : UInt16) : Machine × Operation :=
  let ⟨system, quit, frameDone⟩ := m
  let (system, operation) := system.decode address
  (⟨system, quit, frameDone⟩, operation)

/-- Lets the devices catch up after an instruction that began at cycle `start`, and
asks to quit if the cartridge wants to be started anew. Returns the cycles that
have gone by. -/
def finishStep (s : System Hardware) (start : UInt64) (quit : Bool) : Machine × UInt32 :=
  let ⟨cpu, bus, ledger, journal⟩ := s
  let spent := (cpu.cycles - start).toUInt32
  let (bus, frameDone) := bus.update cpu.cycles cpu.speed
  if bus.rebootRequested then
    ({ cpu, bus := { bus with rebootRequested := false }, ledger
       journal := journal.push .rebootRequested, quit := true, frameDone }, spent)
  else
    ({ cpu, bus, ledger, journal, quit, frameDone }, spent)

/-- One instruction, or four idle cycles while the processor waits. Returns the
cycles consumed. -/
def step (m : Machine) : Machine × Except StepError UInt32 :=
  let ⟨s, quit, frameDone⟩ := m
  let start := s.cpu.cycles
  let (s, _) := s.serviceInterrupts
  if s.cpu.halted then
    let (m, spent) := finishStep (s.spend 4) start quit
    (m, .ok spent)
  else
    let pc := s.cpu.pc
    let (s, operation) := s.decode pc
    if operation.isIllegal then
      let opcode := AddressSpace.read s.bus pc
      (⟨s, quit, frameDone⟩, .error (.illegalOpcode opcode pc))
    else
      let (m, spent) := finishStep (s.execute operation) start quit
      (m, .ok spent)

/-- The cycles that have gone by since the counter showed `start`. -/
def cyclesSince (m : Machine) (start : UInt64) : UInt64 := m.cpu.cycles - start

/-- Whether the cycles granted since `start` have gone by. -/
def limitReached (m : Machine) (start : UInt64) : Option UInt64 → Bool
  | some limit => limit ≤ m.cyclesSince start
  | none => false

/-- Steps until a reason to stop turns up, at most `budget` times. -/
def runSteps (limit : Option UInt64) (start : UInt64) :
    Nat → Machine → Machine × Except StepError StopReason
  | 0, m => (m, .ok (if m.quit then .quit else .cycleLimit))
  | budget + 1, m =>
    if m.quit then
      (m, .ok .quit)
    else if m.limitReached start limit then
      (m, .ok .cycleLimit)
    else
      match m.step with
      | (m, .ok _) => runSteps limit start budget m
      | (m, .error error) => (m, .error error)

/-- The number of steps that suffice to consume a number of cycles: none takes
fewer than four. Without a limit the bound is out of reach. -/
def stepBudget : Option UInt64 → Nat
  | some limit => (limit.toNat + 3) / 4
  | none => 0x4000000000000000

/-- Steps until someone asks to quit or the given number of cycles has gone by. -/
def run (m : Machine) (limit : Option UInt64) : Machine × Except StepError StopReason :=
  runSteps limit m.cpu.cycles (stepBudget limit) m

/-- The cycles that a frame takes at single speed. -/
def cyclesPerFrame : UInt64 := 70224

/-- Steps until a frame is finished, someone asks to quit, or the cycles granted
since `start` have gone by, at most `budget` times. -/
def frameSteps (granted start : UInt64) : Nat → Machine → Machine × Except StepError Unit
  | 0, m => (m, .ok ())
  | budget + 1, m =>
    if m.quit || granted ≤ m.cyclesSince start then
      (m, .ok ())
    else
      match m.step with
      | (m, .ok _) => if m.frameDone then (m, .ok ()) else frameSteps granted start budget m
      | (m, .error error) => (m, .error error)

/-- Steps until the screen finishes a frame or someone asks to quit. While the
screen is off this takes the cycles of one frame. -/
def stepFrame (m : Machine) : Machine × Except StepError Unit :=
  let granted := cyclesPerFrame * Lcd.speedFactor m.cpu.speed
  frameSteps granted m.cpu.cycles (stepBudget (some granted)) m

/-- Sets interrupt requests; an enabled one ends a halt. -/
def raiseInterrupt (m : Machine) (mask : UInt8) : Machine :=
  let ⟨⟨cpu, bus, ledger, journal⟩, quit, frameDone⟩ := m
  let bus := bus.raiseInterrupt mask
  let wakes := bus.interruptFlag &&& bus.memories.interruptEnable != 0
  { cpu := { cpu with halted := cpu.halted && !wakes }, bus, ledger, journal, quit, frameDone }

/-- Calls the interrupt handler at an address. -/
def serviceInterrupt (m : Machine) (vector : UInt16) : Machine :=
  m.within fun s => s.enterHandler vector

/-- Asks to quit. -/
def requestQuit (m : Machine) : Machine := { m with quit := true }

/-- Exchanges the cartridge. The old one comes back with what is on record about
it; origins that point into it stay what they are. -/
def swap (m : Machine) (cartridge : Cartridge) (notes : CartridgeNotes) :
    Machine × Cartridge × CartridgeNotes :=
  let ⟨⟨cpu, bus, ledger, journal⟩, quit, frameDone⟩ := m
  let old := bus.cartridge
  let oldNotes := ledger.cartridge
  let bus := bus.insert cartridge
  ({ cpu := { cpu with color := bus.color }
     bus
     ledger := { ledger with cartridge := notes }
     journal := journal.push (.cartridgeInserted cartridge.header.title)
     quit
     frameDone }, old, oldNotes)

/-- Exchanges the controller of the cartridge. -/
def install (m : Machine) (controller : Controller) : Machine :=
  let ⟨⟨cpu, bus, ledger, journal⟩, quit, frameDone⟩ := m
  { cpu, bus := { bus with cartridge := bus.cartridge.install controller }
    ledger, journal, quit, frameDone }

/-- Every byte that left through the serial interface so far. -/
def serialOutput (m : Machine) : Array UInt8 := m.bus.serial.output

/-- The records of all used bytes. -/
def dump (m : Machine) : List DumpRecord := m.bus.dump m.ledger

/-- The event that reports a step error of this machine. -/
def faultEvent (m : Machine) : StepError → Event
  | .illegalOpcode opcode pc =>
    let regs := m.cpu.registers
    .illegalOpcode
      { opcode, pc, sp := regs.sp, af := regs.af, bc := regs.bc, de := regs.de, hl := regs.hl }

/-- Puts the report of a step error into the journal. -/
def recordFault (m : Machine) (error : StepError) : Machine :=
  let event := m.faultEvent error
  m.within fun s => s.report [event]

/-- The bank, the program counter, the opcode there and whether the processor
waits, followed by the registers and the cycle counter. -/
def stateLine (m : Machine) : String :=
  let regs := m.cpu.registers
  Text.Hex.ofNat 2 m.bus.cartridge.romBank ++ ":" ++ Text.Hex.ofWord m.cpu.pc ++ ":" ++
    Text.Hex.ofByte (m.read m.cpu.pc) ++ ":" ++ (if m.cpu.halted then "1" else "0") ++
    " AF=" ++ Text.Hex.ofWord regs.af ++ " BC=" ++ Text.Hex.ofWord regs.bc ++
    " DE=" ++ Text.Hex.ofWord regs.de ++ " HL=" ++ Text.Hex.ofWord regs.hl ++
    " SP=" ++ Text.Hex.ofWord regs.sp ++ " cycles=" ++ toString m.cpu.cycles.toNat

end Machine

end Handheld
