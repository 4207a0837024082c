import Handheld.Text.Hex

/-!
# Events

While it runs, a machine keeps a journal of what an observer may want to be told.
An event is recorded by what happened; its level and its wording are functions of
it.
-/

set_option autoImplicit false

namespace Handheld

open Text

/-- The interrupt sources. -/
inductive Interrupt where
  | vblank | lcdStat | timer | serial | joypad
  deriving DecidableEq, Inhabited

namespace Interrupt

/-- All sources, the most urgent first. -/
def byPriority : List Interrupt := [.vblank, .lcdStat, .timer, .serial, .joypad]

/-- The number of the bit that stands for a source in the interrupt registers. -/
def bit : Interrupt → Nat
  | .vblank => 0
  | .lcdStat => 1
  | .timer => 2
  | .serial => 3
  | .joypad => 4

/-- A byte in which the bit of the source is set and no other. -/
def mask (interrupt : Interrupt) : UInt8 := 1 <<< UInt8.ofNat interrupt.bit

/-- The address at which the handler of a source starts. -/
def vector (interrupt : Interrupt) : UInt16 := UInt16.ofNat (0x40 + 8 * interrupt.bit)

/-- The name of a source. -/
def name : Interrupt → String
  | .vblank => "VBlank"
  | .lcdStat => "LcdStat"
  | .timer => "Timer"
  | .serial => "Serial"
  | .joypad => "Joypad"

end Interrupt

/-- How much attention an event asks for. -/
inductive Level where
  | error | warn | info | debug | trace
  deriving DecidableEq, Inhabited

/-- The name of a level. -/
def Level.name : Level → String
  | .error => "ERROR"
  | .warn => "WARN"
  | .info => "INFO"
  | .debug => "DEBUG"
  | .trace => "TRACE"

/-- The registers that the report of an illegal opcode shows. -/
structure FaultReport where
  /-- The byte that encodes no instruction. -/
  opcode : UInt8
  /-- Where it was met. -/
  pc : UInt16
  /-- The stack pointer. -/
  sp : UInt16
  /-- The accumulator and the flags. -/
  af : UInt16
  /-- Registers B and C. -/
  bc : UInt16
  /-- Registers D and E. -/
  de : UInt16
  /-- Registers H and L. -/
  hl : UInt16
  deriving DecidableEq, Inhabited

/-- Something worth telling that happened inside a machine. -/
inductive Event where
  /-- An interrupt is about to be dispatched, with `requested` and `enabled` as
  the interrupt registers stood before. -/
  | interrupt (source : Interrupt) (pc sp : UInt16) (requested enabled : UInt8)
  /-- The processor changed its speed. -/
  | speedSwitch (speed : UInt8) (cycles : UInt64)
  /-- A byte left through the serial interface. -/
  | serialOut (value : UInt8)
  /-- A block was copied into video RAM. -/
  | videoTransfer (source destination : UInt16) (length : Nat)
  /-- A flash cartridge was told which sectors it will be asked for. -/
  | sectorSelected (sector : UInt32) (count : UInt8)
  /-- A flash cartridge saw a write that means nothing to it. -/
  | flashWrite (address : UInt16) (value : UInt8)
  /-- The cartridge asked to be started anew. -/
  | rebootRequested
  /-- A cartridge was put in. -/
  | cartridgeInserted (title : String)
  /-- A byte that encodes no instruction was met. -/
  | illegalOpcode (report : FaultReport)
  deriving DecidableEq, Inhabited

/-- The events of a machine, the oldest first. -/
abbrev Journal := Array Event

namespace Event

/-- The level of an event. -/
def level : Event → Level
  | .illegalOpcode _ => .error
  | .rebootRequested | .cartridgeInserted _ => .info
  | .interrupt .. | .speedSwitch .. | .sectorSelected .. | .flashWrite .. => .debug
  | .serialOut _ | .videoTransfer .. => .trace

/-- The wording of an event. -/
def message : Event → String
  | .interrupt source pc sp requested enabled =>
    "interrupt " ++ source.name ++ ": vector=0x" ++ Hex.ofWord source.vector ++
      " pc=0x" ++ Hex.ofWord pc ++ " sp=0x" ++ Hex.ofWord sp ++
      " IF=0x" ++ Hex.ofByte requested ++ " IE=0x" ++ Hex.ofByte enabled
  | .speedSwitch speed cycles =>
    "speed switch: x" ++ toString speed.toNat ++ " at cycle " ++ toString cycles.toNat
  | .serialOut value => "serial out 0x" ++ Hex.ofByte value
  | .videoTransfer source destination length =>
    "HDMA 0x" ++ Hex.ofWord source ++ " -> 0x" ++ Hex.ofWord destination ++
      " len 0x" ++ Hex.ofNat 1 length
  | .sectorSelected sector count =>
    "flash cart: SD sector 0x" ++ Hex.ofNat 8 sector.toNat ++ " count " ++ toString count.toNat
  | .flashWrite address value =>
    "flash cart: ROM write 0x" ++ Hex.ofWord address ++ "=0x" ++ Hex.ofByte value
  | .rebootRequested => "cartridge requested a reboot"
  | .cartridgeInserted title => "inserting cartridge \"" ++ title ++ "\""
  | .illegalOpcode report =>
    "illegal opcode 0x" ++ Hex.ofByte report.opcode ++ " at PC=0x" ++ Hex.ofWord report.pc ++
      " SP=0x" ++ Hex.ofWord report.sp ++ " AF=0x" ++ Hex.ofWord report.af ++
      " BC=0x" ++ Hex.ofWord report.bc ++ " DE=0x" ++ Hex.ofWord report.de ++
      " HL=0x" ++ Hex.ofWord report.hl

end Event

end Handheld
