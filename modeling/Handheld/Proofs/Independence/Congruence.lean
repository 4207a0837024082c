import Handheld.Cpu.Decode

/-!
# Address spaces that cannot be told apart

Two states of an address space are alike for a processor if whatever it asks of them gets the
same answer, now and after any store. A relation with this property is a congruence of the
address space. Equality is the smallest one, and a larger one leaves out what no answer
depends on.

The decoder asks for nothing but places and bytes, so it decodes alike in both.
-/

set_option autoImplicit false

namespace Handheld

/-- A relation of states of an address space that give the same answers and that every change
keeps related. -/
class AddressSpace.Congruence {β : Type} [AddressSpace β] (Same : β → β → Prop) : Prop where
  resolve : ∀ {bus bus' : β}, Same bus bus' → ∀ address,
    AddressSpace.resolve bus address = AddressSpace.resolve bus' address
  load : ∀ {bus bus' : β}, Same bus bus' → ∀ place,
    AddressSpace.load bus place = AddressSpace.load bus' place
  announce : ∀ {bus bus' : β}, Same bus bus' → ∀ place value,
    AddressSpace.announce bus place value = AddressSpace.announce bus' place value
  interruptFlag : ∀ {bus bus' : β}, Same bus bus' →
    AddressSpace.interruptFlag bus = AddressSpace.interruptFlag bus'
  interruptEnable : ∀ {bus bus' : β}, Same bus bus' →
    AddressSpace.interruptEnable bus = AddressSpace.interruptEnable bus'
  speedSwitchArmed : ∀ {bus bus' : β}, Same bus bus' →
    AddressSpace.speedSwitchArmed bus = AddressSpace.speedSwitchArmed bus'
  store : ∀ {bus bus' : β}, Same bus bus' → ∀ place value,
    Same (AddressSpace.store bus place value) (AddressSpace.store bus' place value)
  sync : ∀ {bus bus' : β}, Same bus bus' → ∀ cycles,
    Same (AddressSpace.sync bus cycles) (AddressSpace.sync bus' cycles)
  setInterruptFlag : ∀ {bus bus' : β}, Same bus bus' → ∀ value,
    Same (AddressSpace.setInterruptFlag bus value) (AddressSpace.setInterruptFlag bus' value)
  setDoubleSpeed : ∀ {bus bus' : β}, Same bus bus' → ∀ double,
    Same (AddressSpace.setDoubleSpeed bus double) (AddressSpace.setDoubleSpeed bus' double)

namespace Decoder

/-! ## The decoder -/

variable {β : Type} [AddressSpace β] {bus bus' : β}

/-- A byte operand depends on the bus by the places of addresses. -/
theorem byteOperand_congr (places : AddressSpace.resolve bus = AddressSpace.resolve bus')
    (registers : Registers) (index : Nat) :
    byteOperand registers bus index = byteOperand registers bus' index := by
  unfold byteOperand
  rw [places]

/-- An indirect load depends on the bus by the places of addresses. -/
theorem indirectLoad_congr (places : AddressSpace.resolve bus = AddressSpace.resolve bus')
    (registers : Registers) (index : Nat) :
    indirectLoad registers bus index = indirectLoad registers bus' index := by
  simp only [indirectLoad, indirectLoad.through, indirectLoad.back, places]

/-- A bit instruction depends on the bus by the places of addresses. -/
theorem bitInstruction_congr (places : AddressSpace.resolve bus = AddressSpace.resolve bus')
    (registers : Registers) (opcode : UInt8) :
    bitInstruction registers bus opcode = bitInstruction registers bus' opcode := by
  simp only [bitInstruction, byteOperand_congr places]

/-- The first quarter of the opcodes depends on the bus by the places and bytes of addresses. -/
theorem firstQuarter_congr (places : AddressSpace.resolve bus = AddressSpace.resolve bus')
    (bytes : AddressSpace.load bus = AddressSpace.load bus') (registers : Registers)
    (address : UInt16) (y z : Nat) :
    firstQuarter registers bus address y z = firstQuarter registers bus' address y z := by
  simp only [firstQuarter, immediateWord, addressAt, byteOperand_congr places,
    indirectLoad_congr places, places, bytes]

/-- The second quarter of the opcodes depends on the bus by the places of addresses. -/
theorem secondQuarter_congr (places : AddressSpace.resolve bus = AddressSpace.resolve bus')
    (registers : Registers) (y z : Nat) :
    secondQuarter registers bus y z = secondQuarter registers bus' y z := by
  simp only [secondQuarter, byteOperand_congr places]

/-- The third quarter of the opcodes depends on the bus by the places of addresses. -/
theorem thirdQuarter_congr (places : AddressSpace.resolve bus = AddressSpace.resolve bus')
    (registers : Registers) (y z : Nat) :
    thirdQuarter registers bus y z = thirdQuarter registers bus' y z := by
  simp only [thirdQuarter, byteOperand_congr places]

/-- The fourth quarter of the opcodes depends on the bus by the places and bytes of addresses. -/
theorem fourthQuarter_congr (places : AddressSpace.resolve bus = AddressSpace.resolve bus')
    (bytes : AddressSpace.load bus = AddressSpace.load bus') (registers : Registers)
    (address : UInt16) (y z : Nat) :
    fourthQuarter registers bus address y z = fourthQuarter registers bus' address y z := by
  simp only [fourthQuarter, immediateWord, addressAt, devicePlace, AddressSpace.read,
    bitInstruction_congr places, places, bytes]

end Decoder

/-- What is decoded depends on the places and the bytes that are found, and on the registers. -/
theorem decode_congr {β : Type} [AddressSpace β] {bus bus' : β}
    (places : AddressSpace.resolve bus = AddressSpace.resolve bus')
    (bytes : AddressSpace.load bus = AddressSpace.load bus') (registers : Registers)
    (address : UInt16) : decode registers bus address = decode registers bus' address := by
  have opcode : AddressSpace.read bus address = AddressSpace.read bus' address := by
    unfold AddressSpace.read
    rw [places, bytes]
  unfold decode
  dsimp only
  rw [opcode]
  split
  · exact Decoder.firstQuarter_congr places bytes registers address _ _
  · exact Decoder.secondQuarter_congr places registers _ _
  · exact Decoder.thirdQuarter_congr places registers _ _
  · exact Decoder.fourthQuarter_congr places bytes registers address _ _

namespace AddressSpace

variable {β : Type} [AddressSpace β] {Same : β → β → Prop} [Congruence Same] {bus bus' : β}

/-- Buses that are the same to the processor give the same reads. -/
theorem Congruence.read (same : Same bus bus') (address : UInt16) :
    AddressSpace.read bus address = AddressSpace.read bus' address := by
  unfold AddressSpace.read
  rw [Congruence.resolve same, Congruence.load same]

/-- Buses that are the same to the processor decode alike. -/
theorem Congruence.decode (same : Same bus bus') (registers : Registers) (address : UInt16) :
    Handheld.decode registers bus address = Handheld.decode registers bus' address := by
  apply decode_congr
  · funext address
    exact Congruence.resolve same address
  · funext place
    exact Congruence.load same place

/-- States that are equal are alike. -/
instance : Congruence (@Eq β) := by
  constructor <;> rintro bus _ rfl <;> intros <;> rfl

end AddressSpace

end Handheld
