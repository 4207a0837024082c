import Handheld.Proofs.Counter
import Handheld.Proofs.Hardware.CatchUp
import Handheld.Proofs.RomProgram

/-!
# A machine that waits

A processor that has executed a halt waits for an interrupt. With no interrupt enabled it waits
for ever: every step takes four cycles, and only the devices go on. On a cartridge that is full
of halts the machine waits from its second step on.
-/

set_option autoImplicit false

namespace Handheld

namespace Machine

/-- The processor waits in vain, and the screen is on. -/
structure Waits (m : Machine) : Prop where
  halted : m.cpu.halted = true
  masked : m.bus.memories.interruptEnable = 0
  lit : m.bus.stored .lcdc = 0x91
  calm : m.quit = false
  heard : m.bus.rebootRequested = false

/-- What the devices leave alone. -/
theorem waits_finishStep {s : System Hardware} (halted : s.cpu.halted = true)
    (masked : s.bus.memories.interruptEnable = 0) (lit : s.bus.stored .lcdc = 0x91)
    (heard : s.bus.rebootRequested = false) (start : UInt64) :
    (finishStep s start false).1.Waits := by
  have update := s.bus.caughtUp_update s.cpu.cycles s.cpu.speed
  obtain ⟨kept, quiet⟩ : (s.bus.update s.cpu.cycles s.cpu.speed).1.memories.interruptEnable = 0 ∧
      (s.bus.update s.cpu.cycles s.cpu.speed).1.rebootRequested = false := by
    obtain ⟨-, enable, reboot⟩ := s.bus.withDevices_rest
      (s.bus.devices.update (s.bus.controls s.cpu.speed) s.cpu.cycles).1
    rw [Hardware.update_eq, enable, reboot]
    exact ⟨masked, heard⟩
  obtain ⟨-, stored, -⟩ := finishStep_parts s start false
  constructor
  · rw [finishStep_cpu]
    exact halted
  · rw [finishStep_bus]
    generalize (s.bus.update s.cpu.cycles s.cpu.speed).1 = hw at kept ⊢
    exact kept
  · rw [stored, update.stored .lcdc rfl]
    exact lit
  · simp only [finishStep, quiet, Bool.false_eq_true, if_false]
  · rw [finishStep_bus]

/-- With no interrupt pending a processor that waits spends four cycles on it. -/
theorem step_of_halted {m : Machine} (halted : m.cpu.halted = true) (none : m.pending = 0) :
    m.step = ((finishStep (m.spend 4) m.cpu.cycles m.quit).1, .ok 4) := by
  have idle := System.serviceInterrupts_of_none none
  have acts : m.acted = some (m.spend 4) := by
    simp only [acted, idle, halted, if_true]
  have reported : (finishStep (m.spend 4) m.cpu.cycles m.quit).2 = 4 := by
    have later : (m.spend 4).cpu.cycles = m.cpu.cycles + UInt64.ofNat 4 := rfl
    rw [finishStep_spent, ← UInt32.toNat_inj]
    exact toNat_reported (by decide) later
  rw [step_of_acted acts, reported]

/-- A step of a machine that waits takes four cycles, and the machine waits on. -/
theorem Waits.step {m : Machine} (waits : m.Waits) :
    m.step.2 = .ok 4 ∧ m.step.1.Waits ∧
      m.step.1.cpu = { m.cpu with cycles := m.cpu.cycles + 4 } := by
  have none : m.pending = 0 := by
    show m.bus.interruptFlag &&& m.bus.memories.interruptEnable &&& 0x1F = 0
    rw [waits.masked, UInt8.and_zero, UInt8.zero_and]
  rw [step_of_halted waits.halted none, waits.calm]
  refine ⟨rfl, ?_, ?_⟩
  · exact waits_finishStep (s := m.spend 4) waits.halted waits.masked waits.lit waits.heard _
  · rw [finishStep_cpu]
    rfl

/-- With no interrupt enabled a halt makes a machine wait. -/
theorem waits_of_halt {m : Machine} (awake : m.cpu.halted = false)
    (forbidden : m.cpu.interruptsEnabled = false)
    (halts : AddressSpace.read m.bus m.cpu.pc = 0x76)
    (masked : m.bus.memories.interruptEnable = 0) (lit : m.bus.stored .lcdc = 0x91)
    (calm : m.quit = false) (heard : m.bus.rebootRequested = false) :
    m.step.1.Waits ∧
      m.step.1.cpu =
        { m.cpu with halted := true, pc := m.cpu.pc + 1, cycles := m.cpu.cycles + 4 } := by
  let halt : Operation := { action := .halt, length := 1, cycles := 4 }
  have decoded : decode m.cpu.registers m.bus m.cpu.pc = { operation := halt } := by
    unfold decode
    rw [halts]
    rfl
  let s : System Hardware := (m.ready halt).act .halt
  have acts : m.acted = some s := acted_of_decode awake forbidden decoded rfl rfl
  have bus : s.bus = { m.bus with now := m.cpu.cycles + 4 } := m.ready_bus halt
  have cpu : s.cpu =
      { m.cpu with halted := true, pc := m.cpu.pc + 1, cycles := m.cpu.cycles + 4 } := by
    show { (m.ready halt).cpu with halted := true } = _
    rw [System.ready_cpu]
    rfl
  rw [step_of_acted acts, calm, finishStep_cpu, cpu]
  refine ⟨waits_finishStep ?_ ?_ ?_ ?_ _, rfl⟩
  · rw [cpu]
  · rw [bus]
    exact masked
  · rw [bus]
    exact lit
  · rw [bus]
    exact heard

/-! ## A cartridge full of halts -/

/-- The bytes of a program of halts. -/
def haltBytes : Array UInt8 := Array.replicate 0x8000 0x76

/-- The program of halts fills a ROM of the least size. -/
theorem size_haltBytes : haltBytes.size = Rom.leastSize := by
  simp [haltBytes, Rom.leastSize, romBankSize]

/-- The cartridge with that program. -/
def halts : Cartridge := .ofProgram haltBytes size_haltBytes

/-- A machine that starts with that program. -/
def haltMachine : Machine := (assemble halts #[]).reset

/-- The machine of halts starts with the processor that the boot program leaves. -/
theorem haltMachine_cpu : haltMachine.cpu = ({ color := true } : Cpu).postBoot := rfl

/-- The machine of halts starts with the hardware that the boot program leaves. -/
theorem haltMachine_bus : haltMachine.bus = (assemble halts #[]).bus.powerCycle.postBoot := rfl

/-- The first instruction of the machine is a halt. -/
theorem read_haltMachine : AddressSpace.read haltMachine.bus 0x100 = 0x76 := by
  have unmapped : haltMachine.bus.stored .boot ≠ 0 := by
    rw [haltMachine_bus, Hardware.stored_postBoot]
    decide
  have inside : (0x100 : UInt16).toNat < haltMachine.bus.cartridge.rom.size := by
    show 0x100 < haltBytes.size
    rw [size_haltBytes]
    decide
  have halt : haltBytes.getD 0x100 0xFF = 0x76 := by
    simp [haltBytes, Array.getD_eq_getD_getElem?]
  rw [haltMachine.bus.read_rom unmapped rfl (by decide) inside]
  exact halt

/-- After its first step the machine waits. -/
theorem haltMachine_waits :
    haltMachine.step.1.Waits ∧ haltMachine.step.1.cpu.speed = 1 ∧
      haltMachine.step.1.cpu.cycles = 4 := by
  have begins : haltMachine.cpu.pc = 0x100 := by
    rw [haltMachine_cpu]
    rfl
  have lit : haltMachine.bus.stored .lcdc = 0x91 := by
    rw [haltMachine_bus, Hardware.stored_postBoot]
  obtain ⟨waits, cpu⟩ := waits_of_halt (m := haltMachine) (by rw [haltMachine_cpu]; rfl)
    (by rw [haltMachine_cpu]; rfl) (by rw [begins, read_haltMachine]) rfl lit rfl rfl
  rw [cpu, haltMachine_cpu]
  exact ⟨waits, rfl, rfl⟩

end Machine

end Handheld
