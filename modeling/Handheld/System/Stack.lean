import Handheld.System.Basic

/-!
# The stack

The stack grows downwards and holds a word with its lower byte at the lower
address. A pushed register keeps its origin; the program counter has none to keep.
-/

set_option autoImplicit false

namespace Handheld.System

variable {β : Type} [AddressSpace β]

/-- The stack pointer. -/
def sp (s : System β) : UInt16 := s.cpu.registers.sp

/-- Moves a word onto the stack. Both stack places are resolved before either is
written. -/
def push (s : System β) (source : PlacePair) : System β :=
  let sp := s.sp
  let high := s.resolve (sp - 1)
  let low := s.resolve (sp - 2)
  let s := s.move high source.high
  let s := s.move low source.low
  s.writePair .sp (sp - 2)

/-- Moves a word from the stack. -/
def pop (s : System β) (destination : PlacePair) : System β :=
  let sp := s.sp
  let low := s.resolve sp
  let high := s.resolve (sp + 1)
  let s := s.move destination.low low
  let s := s.move destination.high high
  s.writePair .sp (sp + 2)

/-- Writes the program counter onto the stack, its upper byte first. The second
place is resolved after the first write. -/
def pushPc (s : System β) : System β :=
  let sp := s.sp
  let pc := s.cpu.pc
  let s := s.write (s.resolve (sp - 1)) (highByte pc)
  let s := s.write (s.resolve (sp - 2)) (lowByte pc)
  s.writePair .sp (sp - 2)

/-- Takes the program counter from the stack. -/
def popPc (s : System β) : System β :=
  let sp := s.sp
  let top : PlacePair := ⟨s.resolve (sp + 1), s.resolve sp⟩
  let s := s.markOrigin top.low .pointerLow
  let s := s.markOrigin top.high .pointerHigh
  let s := s.jumpTo (s.loadWord top)
  s.writePair .sp (sp + 2)

end Handheld.System
