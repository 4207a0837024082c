import Handheld.Ledger
import Handheld.Event

/-!
# Address spaces

The processor owns no memory. It reaches everything outside its registers through
an address space, which resolves addresses to places and says what a load or a
store at a place does. The values in an address space evolve without regard to
what is on record about them: a store returns the next state, and what it means
for the ledger and the journal is told apart, from the state before the store.
-/

set_option autoImplicit false

namespace Handheld

/-- What the processor needs from the machine around it. -/
class AddressSpace (β : Type) where
  /-- The place an address stands for at this moment. -/
  resolve (bus : β) (address : UInt16) : Place
  /-- The byte kept at a place, if there is one. -/
  byte? (bus : β) (place : Place) : Option UInt8
  /-- What reading a place yields. -/
  load (bus : β) (place : Place) : UInt8
  /-- Writes a byte to a place, with all that the devices make of it. -/
  store (bus : β) (place : Place) (value : UInt8) : β
  /-- The moves that a store sets off by itself, booked in the ledger. -/
  trail (bus : β) (place : Place) (value : UInt8) (ledger : Ledger) : Ledger := ledger
  /-- The events that a store brings about. -/
  announce (bus : β) (place : Place) (value : UInt8) : List Event := []
  /-- The ROM bank that is stamped on usage records. -/
  romBank (bus : β) : Nat := 1
  /-- Tells the devices what time it is. -/
  sync (bus : β) (cycles : UInt64) : β := bus
  /-- The pending interrupt requests. -/
  interruptFlag (bus : β) : UInt8
  /-- Replaces the pending interrupt requests. -/
  setInterruptFlag (bus : β) (value : UInt8) : β
  /-- The interrupts that are let through. -/
  interruptEnable (bus : β) : UInt8
  /-- Whether the program asked for a change of speed. -/
  speedSwitchArmed (bus : β) : Bool := false
  /-- Reports the speed after a change. -/
  setDoubleSpeed (bus : β) (double : Bool) : β := bus

namespace AddressSpace

variable {β : Type} [AddressSpace β]

/-- Whether an address space keeps a byte at a place. -/
def present (bus : β) (place : Place) : Bool := (byte? bus place).isSome

/-- What reading an address yields. -/
def read (bus : β) (address : UInt16) : UInt8 := load bus (resolve bus address)

end AddressSpace

end Handheld
