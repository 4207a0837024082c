import Handheld.Proofs.Dispatch
import Handheld.Proofs.Waiting

/-!
# A halt lasts until an interrupt is pending

A processor that has executed a halt lets four cycles pass in every step. The devices catch up
with the time and show themselves in six of the registers; the program, the memories, the
cartridge and the records are left as they are. What a halt waits for is an interrupt that is
requested and enabled. The step that finds one goes on with the program, also where interrupts
are forbidden; the handler is called only where they are allowed.

* `still_idled`: what the devices leave alone, however often they catch up.
* `after_of_halted`: a machine after some steps of waiting, by induction on their number.
* `step_of_awake`: the step of a machine whose processor does not wait.
-/

set_option autoImplicit false

namespace Handheld

namespace Hardware

/-! ## What the devices leave alone -/

/-- Only the devices have gone on, with the six registers in which they show themselves. -/
structure Still (hw next : Hardware) : Prop where
  cartridge : next.cartridge = hw.cartridge
  color : next.color = hw.color
  memories : next.memories = { hw.memories with io := next.memories.io }
  io : ∀ n : Nat, (∀ r : DeviceRegister, r.catchesUp = true → n ≠ r.offset) →
    next.memories.io[n]? = hw.memories.io[n]?

namespace Still

variable {hw next last : Hardware}

/-- Hardware is still against itself. -/
theorem refl (hw : Hardware) : Still hw hw :=
  ⟨rfl, rfl, rfl, fun _ _ => rfl⟩

/-- Hardware that is still twice over is still. -/
theorem trans (first : Still hw next) (second : Still next last) : Still hw last where
  cartridge := second.cartridge.trans first.cartridge
  color := second.color.trans first.color
  memories := by
    rw [second.memories, first.memories]
  io := by
    intro n other
    exact (second.io n other).trans (first.io n other)

/-- A register in which the devices show themselves may be set. -/
theorem setStored (h : Still hw next) (r : DeviceRegister) (shows : r.catchesUp = true)
    (value : UInt8) : Still hw (next.setStored r value) where
  cartridge := h.cartridge
  color := h.color
  memories := by
    rw [Hardware.setStored, h.memories]
  io := by
    intro n other
    rw [← h.io n other]
    exact Vector.getElem?_set_ne r.offset.isLt (other r shows).symm

end Still

/-- An exchange of the devices leaves the rest still. -/
theorem still_withDevices (hw : Hardware) (devices : Devices) :
    Still hw (hw.withDevices devices) := by
  obtain ⟨now, timer, counter, serial, data, transfer, lineStart, lcd, requests⟩ := devices
  have behind : Still hw { hw with now, timer, serial, lineStart } :=
    ⟨rfl, rfl, rfl, fun _ _ => rfl⟩
  have before := ((behind.setStored .tima rfl counter).setStored .sb rfl data).setStored .sc rfl
    transfer
  exact ((before.setStored .ly rfl lcd.line).setStored .stat rfl lcd.status).setStored .irq rfl
    requests

/-- Catching up leaves the rest still. -/
theorem still_update (hw : Hardware) (now : UInt64) (speed : UInt8) :
    Still hw (hw.update now speed).1 := by
  rw [update_eq]
  exact hw.still_withDevices _

/-- The hardware after a number of updates, four cycles apart. -/
def idled (hw : Hardware) (start : UInt64) (speed : UInt8) : Nat → Hardware
  | 0 => hw
  | n + 1 => ((hw.idled start speed n).update (start + 4 * UInt64.ofNat (n + 1)) speed).1

/-- One more idle step is one more catching up. -/
theorem idled_succ (hw : Hardware) (start : UInt64) (speed : UInt8) (n : Nat) :
    hw.idled start speed (n + 1) =
      ((hw.idled start speed n).update (start + 4 * UInt64.ofNat (n + 1)) speed).1 := rfl

/-- Any number of idle steps leaves the rest still. -/
theorem still_idled (hw : Hardware) (start : UInt64) (speed : UInt8) (n : Nat) :
    Still hw (hw.idled start speed n) := by
  induction n with
  | zero => exact .refl hw
  | succ n ih => exact ih.trans (still_update _ _ speed)

/-- An exchange of the devices and the reboot latch do not meet. -/
theorem withDevices_heard (hw : Hardware) (asked : Bool) (devices : Devices) :
    { hw with rebootRequested := asked }.withDevices devices =
      { hw.withDevices devices with rebootRequested := asked } := by
  unfold withDevices
  rfl

/-- No device looks at a request to start anew. -/
theorem update_heard (hw : Hardware) (asked : Bool) (now : UInt64) (speed : UInt8) :
    ({ hw with rebootRequested := asked }.update now speed).1 =
      { (hw.update now speed).1 with rebootRequested := asked } := by
  rw [update_eq, update_eq]
  exact hw.withDevices_heard asked _

end Hardware

namespace Machine

/-! ## Waiting -/

/-- The end of a step leaves the ledger alone. -/
theorem finishStep_ledger (s : System Hardware) (start : UInt64) (quit : Bool) :
    (finishStep s start quit).1.ledger = s.ledger := by
  unfold finishStep
  dsimp only
  split <;> rfl

/-- What a machine is that has waited for `n` steps, as long as nothing was pending. A request to
start anew is answered by the first of them. -/
theorem after_of_halted {m : Machine} (halted : m.cpu.halted = true) {n : Nat}
    (quiet : ∀ i < n, (m.after i).pending = 0) :
    (m.after n).cpu = { m.cpu with cycles := m.cpu.cycles + 4 * UInt64.ofNat n } ∧
      (m.after n).ledger = m.ledger ∧
      (m.after n).bus =
        { m.bus.idled m.cpu.cycles m.cpu.speed n with
          rebootRequested := m.bus.rebootRequested && n == 0 } := by
  induction n with
  | zero =>
    refine ⟨?_, rfl, ?_⟩
    · simp [after]
    · simp [after, Hardware.idled]
  | succ n ih =>
    obtain ⟨cpu, ledger, bus⟩ := ih fun i few => quiet i (Nat.lt_succ_of_lt few)
    have waits : (m.after n).cpu.halted = true := by
      rw [cpu]
      exact halted
    have later : m.cpu.cycles + 4 * UInt64.ofNat n + 4 =
        m.cpu.cycles + 4 * UInt64.ofNat (n + 1) := by
      rw [UInt64.ofNat_add]
      grind
    rw [after_succ, step_of_halted waits (quiet n (Nat.lt_succ_self n))]
    refine ⟨?_, ?_, ?_⟩
    · rw [finishStep_cpu, System.spend_cpu, cpu, later]
    · rw [finishStep_ledger]
      exact ledger
    · rw [finishStep_bus, System.spend_bus, System.spend_cpu, cpu, bus, later,
        Hardware.update_heard, ← Hardware.idled_succ, show (n + 1 == 0) = false from rfl,
        Bool.and_false]

/-! ## Waking up -/

/-- What a step makes of the instruction at the program counter of `s`, where `m` is the machine
before the step and `s` what the check for interrupts has left of its processor. It fails at a
byte that encodes no instruction. Otherwise it executes the instruction and lets the devices
catch up. -/
def instructionOf (m : Machine) (s : System Hardware) : Machine × Except StepError UInt32 :=
  let (decoded, operation) := s.decode s.cpu.pc
  if operation.isIllegal then
    (⟨decoded, m.quit, m.frameDone⟩,
      .error (.illegalOpcode (AddressSpace.read s.bus s.cpu.pc) s.cpu.pc))
  else
    let (next, spent) := finishStep (decoded.execute operation) m.cpu.cycles m.quit
    (next, .ok spent)

/-- A step of a machine that is awake executes an instruction. -/
theorem step_of_awake {m : Machine} (awake : m.serviceInterrupts.1.cpu.halted = false) :
    m.step = m.instructionOf m.serviceInterrupts.1 := by
  simp only [step, instructionOf, awake, System.decode_bus, Bool.false_eq_true, if_false]

/-- A processor that waits does so until an interrupt is pending. Until then each step takes four
cycles, in which the devices catch up; the registers, the memories, the cartridge and the records
are left as they are. The step that finds an interrupt pending goes on with the program: with the
next instruction if interrupts are forbidden, and otherwise with the first one of the handler of
the lowest bit that is pending. -/
theorem halt_lasts_until_pending {m : Machine} (halted : m.cpu.halted = true) {n : Nat}
    (quiet : ∀ i < n, (m.after i).pending = 0) :
    let last := m.after n
    (∀ i < n, (m.after i).step.2 = .ok 4) ∧
      last.cpu = { m.cpu with cycles := m.cpu.cycles + 4 * UInt64.ofNat n } ∧
      last.ledger = m.ledger ∧
      last.bus =
        { m.bus.idled m.cpu.cycles m.cpu.speed n with
          rebootRequested := m.bus.rebootRequested && n == 0 } ∧
      Hardware.Still m.bus last.bus ∧
      (last.pending ≠ 0 → m.cpu.interruptsEnabled = false →
        last.step = last.instructionOf last.wake) ∧
      (last.pending ≠ 0 → m.cpu.interruptsEnabled = true →
        ∃ source : Interrupt, source.IsLowest last.pending ∧
          let called := last.wake.dispatch source
          called.cpu.pc = UInt16.ofNat (0x40 + 8 * source.bit) ∧
            last.step = last.instructionOf called) := by
  intro last
  obtain ⟨cpu, ledger, bus⟩ := after_of_halted halted quiet
  have still := m.bus.still_idled m.cpu.cycles m.cpu.speed n
  refine ⟨?_, cpu, ledger, bus, ?_, ?_, ?_⟩
  · intro i few
    have earlier := after_of_halted halted fun j less => quiet j (Nat.lt_trans less few)
    have waits : (m.after i).cpu.halted = true := by
      rw [earlier.1]
      exact halted
    rw [step_of_halted waits (quiet i few)]
  · show Hardware.Still m.bus last.bus
    rw [show last.bus = _ from bus]
    exact ⟨still.cartridge, still.color, still.memories, still.io⟩
  · intro pending forbidden
    have same : last.cpu.interruptsEnabled = false := by
      rw [show last.cpu = _ from cpu]
      exact forbidden
    have woken := System.serviceInterrupts_of_forbidden pending same
    have awake : last.serviceInterrupts.1.cpu.halted = false := by
      rw [woken]
      rfl
    rw [step_of_awake awake, woken]
  · intro pending allowed
    have same : last.cpu.interruptsEnabled = true := by
      rw [show last.cpu = _ from cpu]
      exact allowed
    obtain ⟨source, lowest, called⟩ := System.serviceInterrupts_of_allowed pending same
    refine ⟨source, lowest, rfl, ?_⟩
    have awake : last.serviceInterrupts.1.cpu.halted = false := by
      rw [called]
      exact (last.wake.dispatch_switches source).2
    rw [step_of_awake awake, called]

/-- The boot program has allowed interrupts and halted. The timer runs and is one tick away
from its end, and its interrupt is the only one enabled. -/
def halting : Machine :=
  let m := assemble .empty #[0x31, 0xFE, 0xFF, 0xFB, 0x76]
  (m.reset.session [.write 0xFF07 5, .write 0xFF05 0xFE, .write 0xFFFF 4, .step, .step, .step]).1

/-- The halt lasts for three more steps, until the timer asks for attention. Then its handler
begins. -/
theorem halt_lasts_until_pending_of_timer :
    (halting.cpu.halted = true ∧ ∀ i < 3, (halting.after i).pending = 0) ∧
      (∀ i < 3, (halting.after i).step.2 = .ok 4) ∧
      (halting.after 3).cpu = { halting.cpu with cycles := 32 } ∧
      (halting.after 3).pending = 4 ∧
      ∃ called : System Hardware, called.cpu.pc = 0x0050 ∧
        (halting.after 3).step = (halting.after 3).instructionOf called := by
  have facts : (halting.cpu.halted = true ∧ halting.cpu.interruptsEnabled = true ∧
      halting.cpu.cycles = 20) ∧ (∀ i < 3, (halting.after i).pending = 0) ∧
      (halting.after 3).pending = 4 := by
    decide +kernel
  obtain ⟨⟨halted, allowed, started⟩, quiet, pending⟩ := facts
  obtain ⟨steps, cpu, -, -, -, -, wakes⟩ := halt_lasts_until_pending halted quiet
  have some : (halting.after 3).pending ≠ 0 := by
    rw [pending]
    decide
  obtain ⟨source, lowest, vector, next⟩ := wakes some allowed
  have timer : source = .timer := by
    rw [pending] at lowest
    apply lowest.unique
    unfold Interrupt.IsLowest
    decide
  refine ⟨⟨halted, quiet⟩, steps, ?_, pending, _, ?_, next⟩
  · rw [cpu, started]
    rfl
  · rw [vector, timer]
    rfl

end Machine

end Handheld
