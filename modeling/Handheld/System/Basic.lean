import Handheld.Cpu.Decode

/-!
# The processor in its address space

A `System` is a processor, the address space it works in, the ledger of what is on
record about the bytes of both, and the journal. The functions of this module are
the only ones through which instructions touch bytes. Each of them changes the
values and the ledger in step, and the values it leaves never depend on the ledger.
-/

set_option autoImplicit false

namespace Handheld

/-- A processor at work. -/
structure System (β : Type) where
  /-- The processor. -/
  cpu : Cpu := {}
  /-- Everything it can address. -/
  bus : β
  /-- What is on record about registers and addressable bytes. -/
  ledger : Ledger := {}
  /-- What happened so far. -/
  journal : Journal := #[]

namespace System

variable {β : Type} [AddressSpace β]

/-- Whether there is a byte at a place, registers included. -/
def present (bus : β) : Place → Bool
  | .register _ => true
  | place => AddressSpace.present bus place

/-- The byte kept at a place, if there is one. -/
def byte? (s : System β) : Place → Option UInt8
  | .register r => some (s.cpu.registers.get r)
  | place => AddressSpace.byte? s.bus place

/-- What reading a place yields. -/
def load (s : System β) : Place → UInt8
  | .register r => s.cpu.registers.get r
  | place => AddressSpace.load s.bus place

/-- The word read from two places. -/
def loadWord (s : System β) (pair : PlacePair) : UInt16 :=
  word (s.load pair.high) (s.load pair.low)

/-- The place an address stands for. -/
def resolve (s : System β) (address : UInt16) : Place :=
  AddressSpace.resolve s.bus address

/-- The recorded origin of a place. -/
def origin? (s : System β) (place : Place) : Option Place :=
  s.ledger.origin? (present s.bus) place

/-- Puts events into the journal. -/
def report (s : System β) (events : List Event) : System β :=
  { s with journal := events.foldl Array.push s.journal }

/-- Writes a register and leaves its note alone. -/
def setRegister (s : System β) (r : Register) (value : UInt8) : System β :=
  { s with cpu := { s.cpu with registers := s.cpu.registers.set r value } }

/-- Writes the flags and leaves the note on them alone. -/
def setFlags (s : System β) (flags : Flags) : System β :=
  { s with cpu := { s.cpu with registers := { s.cpu.registers with flags } } }

/-- The condition flags. -/
def flags (s : System β) : Flags := s.cpu.registers.flags

/-- Puts a byte at a place, as far as the devices allow, and leaves the note of
that place alone. -/
def store (s : System β) (place : Place) (value : UInt8) : System β :=
  match place with
  | .register r => s.setRegister r value
  | place =>
    let ⟨cpu, bus, ledger, journal⟩ := s
    let ledger := AddressSpace.trail bus place value ledger
    let journal := (AddressSpace.announce bus place value).foldl Array.push journal
    { cpu, bus := AddressSpace.store bus place value, ledger, journal }

/-- Forgets the origin of a place. -/
def clearOrigin (s : System β) (place : Place) : System β :=
  let ⟨cpu, bus, ledger, journal⟩ := s
  if present bus place then
    { cpu, bus, ledger := ledger.clearOrigin place, journal }
  else
    { cpu, bus, ledger, journal }

/-- Writes a byte that comes from nowhere in particular. -/
def write (s : System β) (place : Place) (value : UInt8) : System β :=
  (s.store place value).clearOrigin place

/-- Moves a byte and books the move. -/
def move (s : System β) (destination source : Place) : System β :=
  let value := s.load source
  let ⟨cpu, bus, ledger, journal⟩ := s.store destination value
  { cpu, bus, ledger := ledger.link (present bus) destination source, journal }

/-- Adds kinds of use to the record of a place. -/
def mark (s : System β) (place : Place) (usage : Usage) : System β :=
  let ⟨cpu, bus, ledger, journal⟩ := s
  if present bus place then
    { cpu, bus, ledger := ledger.mark place usage (AddressSpace.romBank bus), journal }
  else
    { cpu, bus, ledger, journal }

/-- Adds kinds of use to the record of the place from which the value at a place
stems, if that is known. -/
def markOrigin (s : System β) (place : Place) (usage : Usage) : System β :=
  match s.origin? place with
  | some origin => s.mark origin usage
  | none => s

/-- Writes a pair of registers with a word that comes from nowhere in particular. -/
def writePair (s : System β) (pair : RegisterPair) (value : UInt16) : System β :=
  (s.write (.register pair.high) (highByte value)).write (.register pair.low) (lowByte value)

/-- Sets the program counter. -/
def jumpTo (s : System β) (address : UInt16) : System β :=
  { s with cpu := { s.cpu with pc := address } }

/-- Lets time pass on the cycle counter. -/
def spend (s : System β) (cycles : UInt64) : System β :=
  { s with cpu := { s.cpu with cycles := s.cpu.cycles + cycles } }

/-- Allows or forbids interrupts. -/
def setInterrupts (s : System β) (enabled : Bool) : System β :=
  { s with cpu := { s.cpu with interruptsEnabled := enabled } }

/-- Books a remark of the decoder. -/
def applyMark (s : System β) : Mark → System β
  | .place place usage => s.mark place usage
  | .originOf place usage => s.markOrigin place usage

/-- Decodes the instruction at an address and books the decoder's remarks. -/
def decode (s : System β) (address : UInt16) : System β × Operation :=
  let decoded := Handheld.decode s.cpu.registers s.bus address
  (decoded.marks.foldl applyMark s, decoded.operation)

end System

end Handheld
