import Handheld.Proofs.Hardware.Stores
import Handheld.Proofs.Step

/-!
# Programs in ROM

A cartridge without a controller shows its ROM as it is, so what a program there does can
be told instruction by instruction: the byte at the program counter is a byte of the chip,
and with interrupts forbidden the first half of a step is the execution of what that byte
encodes.
-/

set_option autoImplicit false

namespace Handheld

namespace Cartridge

/-- A cartridge for the color machine with a program on the smallest chip. -/
def ofProgram (bytes : Array UInt8) (size_eq : bytes.size = Rom.leastSize) : Cartridge where
  header := { color := true }
  rom := ⟨bytes, 0, size_eq⟩
  sram := #[]
  controller := .none

/-- A cartridge around a program has its bytes as ROM. -/
theorem ofProgram_bytes (bytes : Array UInt8) (size_eq : bytes.size = Rom.leastSize) :
    (ofProgram bytes size_eq).rom.bytes = bytes := rfl

/-- A cartridge around a program has a ROM of its size. -/
theorem ofProgram_size (bytes : Array UInt8) (size_eq : bytes.size = Rom.leastSize) :
    (ofProgram bytes size_eq).rom.size = bytes.size := rfl

end Cartridge

namespace Hardware

/-- Once the boot image is unmapped the lower half of the address space shows the ROM. -/
theorem read_rom (hw : Hardware) (unmapped : hw.stored .boot ≠ 0)
    (plain : hw.cartridge.controller = .none) {address : UInt16} (low : address < 0x8000)
    (inside : address.toNat < hw.cartridge.rom.size) :
    AddressSpace.read hw address = hw.cartridge.rom.bytes.getD address.toNat 0xFF := by
  have hidden : hw.bootAnswers address = false := by
    simp [bootAnswers, bootMapped, unmapped]
  have shown : hw.resolve address = .rom address.toNat address := by
    unfold resolve Cartridge.romPlace Controller.mapRom
    rw [if_pos low, hidden, plain]
    simp only [Bool.false_eq_true, if_false]
    rw [Nat.mod_eq_of_lt inside]
  rw [read_of_resolve shown]
  show (hw.cartridge.rom.bytes[address.toNat]?).getD 0xFF = _
  rw [Array.getD_eq_getD_getElem?]

end Hardware

namespace System

variable {β : Type} [AddressSpace β]

/-- A color machine whose program armed the switch changes its speed when it stops. -/
theorem switchSpeed_of_armed (s : System β) (color : s.cpu.color = true)
    (armed : AddressSpace.speedSwitchArmed s.bus = true) :
    let speed := if s.cpu.speed = 1 then 2 else 1
    s.switchSpeed.cpu = { s.cpu with speed } ∧
      s.switchSpeed.bus = AddressSpace.setDoubleSpeed s.bus (speed == 2) := by
  unfold switchSpeed
  rw [color, armed]
  exact ⟨rfl, rfl⟩

end System

namespace Machine

/-- Awake and with interrupts forbidden, the first half of a step is one instruction. -/
theorem acted_of_decode {m : Machine} (awake : m.cpu.halted = false)
    (forbidden : m.cpu.interruptsEnabled = false) {operation : Operation}
    (decoded : decode m.cpu.registers m.bus m.cpu.pc = { operation })
    (legal : operation.isIllegal = false) (plain : operation.hlStep = 0) :
    m.acted = some ((m.ready operation).act operation.action) := by
  have idle : m.serviceInterrupts = (m.toSystem, 0) :=
    System.serviceInterrupts_of_idle awake (.inl forbidden)
  have here : m.decode m.cpu.pc = (m.toSystem, operation) := by
    unfold System.decode
    rw [decoded]
    rfl
  rw [← m.execute_of_plain plain]
  simp only [acted, idle, awake, here, legal, Bool.false_eq_true, if_false]

end Machine

end Handheld
