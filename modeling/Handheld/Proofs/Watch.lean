import Handheld.Proofs.Enclosure

/-!
# Watching the stores of a processor

A watched address space answers as the one inside it and keeps a list of the places that
were stored to. A processor cannot tell whether it is watched: whatever it does to a
watched address space it does to the one inside. So the places to which an instruction
stores can be read off a watched run of it, without a second account of what each
instruction does.

Requests cannot be taken back in a watched address space. That an instruction is executed
there as anywhere else (`unwatched_execute`) therefore also says that no instruction takes
back a request, except by a store.
-/

set_option autoImplicit false

namespace Handheld

/-- An address space with the places that were stored to, the earliest first. -/
structure Watched (β : Type) where
  bus : β
  stores : List Place

variable {β : Type} [AddressSpace β]

instance : AddressSpace (Watched β) where
  resolve w := AddressSpace.resolve w.bus
  byte? w := AddressSpace.byte? w.bus
  load w := AddressSpace.load w.bus
  store w place value := ⟨AddressSpace.store w.bus place value, w.stores ++ [place]⟩
  trail w := AddressSpace.trail w.bus
  announce w := AddressSpace.announce w.bus
  romBank w := AddressSpace.romBank w.bus
  sync w cycles := { w with bus := AddressSpace.sync w.bus cycles }
  interruptFlag w := AddressSpace.interruptFlag w.bus
  -- Only the check for interrupts takes back a request, and it is not watched while it does.
  setInterruptFlag w _ := w
  interruptEnable w := AddressSpace.interruptEnable w.bus
  speedSwitchArmed w := AddressSpace.speedSwitchArmed w.bus
  setDoubleSpeed w double := { w with bus := AddressSpace.setDoubleSpeed w.bus double }

/-- What is stored outside, with a note of the place, is stored inside as well. -/
instance : AddressSpace.Encloses (Watched.bus : Watched β → β) := by
  constructor <;> intros <;> rfl

namespace System

section Watching

omit [AddressSpace β]

/-- The same processor, watched from now on. -/
def watched (s : System β) : System (Watched β) := { s with bus := ⟨s.bus, []⟩ }

/-- The same processor with nobody watching. -/
def unwatched (s : System (Watched β)) : System β := { s with bus := s.bus.bus }

end Watching

variable (s : System (Watched β))

/-- An instruction does to a watched address space what it does to the one inside. -/
theorem unwatched_execute (operation : Operation) :
    (s.execute operation).unwatched = s.unwatched.execute operation :=
  s.inside_execute operation

/-- A handler is entered in a watched address space as it is in the one inside. -/
theorem unwatched_enterHandler (vector : UInt16) :
    (s.enterHandler vector).unwatched = s.unwatched.enterHandler vector :=
  s.inside_enterHandler vector

end System

end Handheld
