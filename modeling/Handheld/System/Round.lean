import Handheld.System.Execute
import Handheld.System.Interrupts

/-!
# Rounds

A round is what a processor does without devices that have to catch up: it
dispatches an interrupt if one is due, and executes one instruction unless it waits.
-/

set_option autoImplicit false

namespace Handheld

/-- What one round did. -/
structure Round where
  /-- The cycles that the dispatch of an interrupt took. -/
  serviced : UInt32
  /-- The instruction that was decoded, none while the processor waits. -/
  operation : Option Operation
  deriving DecidableEq, Inhabited

namespace System

variable {β : Type} [AddressSpace β]

/-- Dispatches an interrupt if one is due and executes one instruction unless the
processor waits. An instruction that is illegal is reported and not executed. -/
def round (s : System β) : System β × Round :=
  let (s, serviced) := s.serviceInterrupts
  if s.cpu.halted then
    (s, { serviced, operation := none })
  else
    let (s, operation) := s.decode s.cpu.pc
    if operation.isIllegal then
      (s, { serviced, operation := some operation })
    else
      (s.execute operation, { serviced, operation := some operation })

end System

end Handheld
