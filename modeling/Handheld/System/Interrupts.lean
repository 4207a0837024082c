import Handheld.System.Stack

/-!
# Interrupt dispatch

A request is honoured if its source is enabled and interrupts are allowed; of
several the most urgent one is. An enabled request ends a halt even while
interrupts are forbidden.
-/

set_option autoImplicit false

namespace Handheld.System

variable {β : Type} [AddressSpace β]

/-- The requests of enabled sources. -/
def pending (s : System β) : UInt8 :=
  AddressSpace.interruptFlag s.bus &&& AddressSpace.interruptEnable s.bus &&& 0x1F

/-- The most urgent of the sources whose bits are set. -/
def mostUrgent (pending : UInt8) : Option Interrupt :=
  Interrupt.byPriority.find? fun source => pending &&& source.mask != 0

/-- Calls the handler at an address and forbids further interrupts. -/
def enterHandler (s : System β) (vector : UInt16) : System β :=
  (((s.spend 20).setInterrupts false).pushPc).jumpTo vector

/-- Takes back the request of a source and calls its handler. -/
def dispatch (s : System β) (source : Interrupt) : System β :=
  let ⟨cpu, bus, ledger, journal⟩ := s
  let requested := AddressSpace.interruptFlag bus
  let enabled := AddressSpace.interruptEnable bus
  let s : System β :=
    { cpu
      bus := AddressSpace.setInterruptFlag bus (requested &&& ~~~ source.mask)
      ledger
      journal := journal.push (.interrupt source cpu.pc cpu.registers.sp requested enabled) }
  s.enterHandler source.vector

/-- Dispatches the most urgent pending interrupt, if there is one and interrupts
are allowed. Returns the cycles it took. -/
def serviceInterrupts (s : System β) : System β × UInt32 :=
  let pending := s.pending
  if pending = 0 then
    (s, 0)
  else
    let s := { s with cpu := { s.cpu with halted := false } }
    if s.cpu.interruptsEnabled then
      match mostUrgent pending with
      | some source => (s.dispatch source, 20)
      | none => (s, 0)
    else
      (s, 0)

end Handheld.System
