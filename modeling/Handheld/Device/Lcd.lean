import Handheld.Device.Timer
import Handheld.Event

/-!
# The screen

Only the timing of the screen is kept: the line counter runs through 154 lines of
456 dots, the status register tells the mode and whether the line is the one that
the program waits for, and entering line 144 finishes a frame. Dots run at the
single-speed rate whatever the processor does.
-/

set_option autoImplicit false

namespace Handheld

/-- What the screen shows of itself through its registers. -/
structure LcdRegisters where
  /-- The line counter. -/
  line : UInt8
  /-- The status register. -/
  status : UInt8
  deriving DecidableEq, Inhabited

/-- The screen between two updates, with what it has raised. -/
structure LcdProgress where
  /-- When the current line began. -/
  lineStart : UInt64
  /-- The registers. -/
  registers : LcdRegisters
  /-- The interrupt requests raised. -/
  interrupts : UInt8 := 0
  /-- Whether a frame was finished. -/
  frame : Bool := false
  deriving DecidableEq, Inhabited

namespace Lcd

/-- The number of lines that show something. -/
def visibleLines : UInt8 := 144

/-- The number of lines in a frame. -/
def linesPerFrame : UInt8 := 154

/-- The number of dots in a line. -/
def dotsPerLine : UInt64 := 456

/-- The factor by which the processor is faster than the screen at single speed. -/
def speedFactor (speed : UInt8) : UInt64 := if speed = 0 then 1 else speed.toUInt64

/-- The status bit that tells whether the line is the one waited for. -/
def coincidenceBit : UInt8 := 0x04

/-- The status bit that asks for an interrupt when it becomes so. -/
def coincidenceInterruptBit : UInt8 := 0x40

/-- Compares the line with the one waited for. The interrupt is raised only when
the status bit goes from clear to set. -/
def compareLine (awaited : UInt8) (progress : LcdProgress) : LcdProgress :=
  let ⟨line, status⟩ := progress.registers
  if line = awaited then
    { progress with
      registers := ⟨line, status ||| coincidenceBit⟩
      interrupts :=
        if status &&& coincidenceBit == 0 && status &&& coincidenceInterruptBit != 0 then
          progress.interrupts ||| Interrupt.lcdStat.mask
        else
          progress.interrupts }
  else
    { progress with registers := ⟨line, status &&& ~~~ coincidenceBit⟩ }

/-- Enters the next line. -/
def nextLine (lineTime : UInt64) (awaited : UInt8) (progress : LcdProgress) : LcdProgress :=
  let line := (progress.registers.line + 1) % linesPerFrame
  let progress := compareLine awaited
    { progress with
      lineStart := progress.lineStart + lineTime
      registers := { progress.registers with line } }
  if line = visibleLines then
    { progress with
      interrupts := progress.interrupts ||| Interrupt.vblank.mask
      frame := true }
  else
    progress

/-- Enters a number of lines. -/
def nextLines (lineTime : UInt64) (awaited : UInt8) : Nat → LcdProgress → LcdProgress
  | 0, progress => progress
  | n + 1, progress => nextLines lineTime awaited n (nextLine lineTime awaited progress)

/-- The mode that the status register tells for a dot of a line. -/
def modeAt (line : UInt8) (dot : UInt64) : UInt8 :=
  if visibleLines ≤ line then 1
  else if dot < 80 then 2
  else if dot < 252 then 3
  else 0

/-- Catches up with the time `now`. A screen that is switched off stays at the
start of line 0. -/
def update (lineStart now : UInt64) (speed control awaited : UInt8) (registers : LcdRegisters) :
    LcdProgress :=
  if control &&& 0x80 = 0 then
    { lineStart := now, registers := ⟨0, registers.status &&& ~~~ 0x03⟩ }
  else
    let factor := speedFactor speed
    let lineTime := dotsPerLine * factor
    let lines := (elapsed lineStart now / lineTime).toNat
    let progress := nextLines lineTime awaited lines { lineStart, registers }
    let progress := compareLine awaited progress
    let ⟨line, status⟩ := progress.registers
    let mode := modeAt line ((now - progress.lineStart) / factor)
    { progress with registers := ⟨line, (status &&& ~~~ 0x03) ||| mode⟩ }

end Lcd

end Handheld
