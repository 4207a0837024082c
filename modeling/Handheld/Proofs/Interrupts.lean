import Handheld.Proofs.System

/-!
# The check for interrupts

Before every instruction the processor looks for interrupts once. After a check that
found something interrupts are forbidden, or the processor was awake already, so a
second check on the spot changes nothing.
-/

set_option autoImplicit false

namespace Handheld.System

variable {β : Type} [AddressSpace β]

/-- The call of a handler leaves interrupts forbidden, and a waiting processor waiting. -/
theorem enterHandler_switches (s : System β) (vector : UInt16) :
    (s.enterHandler vector).cpu.interruptsEnabled = false ∧
      (s.enterHandler vector).cpu.halted = s.cpu.halted := by
  have same := ((s.spend 20).setInterrupts false).pushPc_control
  have forbidden := congrArg Cpu.interruptsEnabled same
  have waiting := congrArg Cpu.halted same
  exact ⟨forbidden, waiting⟩

/-- A dispatch turns interrupts off and does not wake the processor. -/
theorem dispatch_switches (s : System β) (source : Interrupt) :
    (s.dispatch source).cpu.interruptsEnabled = false ∧
      (s.dispatch source).cpu.halted = s.cpu.halted :=
  enterHandler_switches _ _

/-- A processor that no longer waits. -/
def wake (s : System β) : System β := { s with cpu := { s.cpu with halted := false } }

omit [AddressSpace β] in
/-- A processor that is awake need not be woken. -/
theorem wake_of_awake {s : System β} (awake : s.cpu.halted = false) : s.wake = s := by
  unfold wake
  rw [← awake]

/-- The three outcomes of a check for interrupts. -/
theorem serviceInterrupts_eq (s : System β) :
    s.serviceInterrupts =
      if s.pending = 0 then (s, (0 : UInt32))
      else if s.cpu.interruptsEnabled then
        match mostUrgent s.pending with
        | some source => (s.wake.dispatch source, 20)
        | none => (s.wake, 0)
      else (s.wake, 0) := rfl

/-- Without anything pending a check for interrupts does nothing. -/
theorem serviceInterrupts_of_none {s : System β} (none : s.pending = 0) :
    s.serviceInterrupts = (s, 0) := by
  rw [serviceInterrupts_eq, if_pos none]

/-- An interrupt ends a halt even where it is not allowed to interrupt. -/
theorem serviceInterrupts_of_forbidden {s : System β} (pending : s.pending ≠ 0)
    (forbidden : s.cpu.interruptsEnabled = false) : s.serviceInterrupts = (s.wake, 0) := by
  rw [serviceInterrupts_eq, if_neg pending, if_neg (Bool.eq_false_iff.mp forbidden)]

/-- A check that takes no time does no more than end a halt. -/
theorem serviceInterrupts_cases (s : System β) :
    s.serviceInterrupts = (s, 0) ∨ s.serviceInterrupts = (s.wake, 0) ∨
      ∃ source, s.serviceInterrupts = (s.wake.dispatch source, 20) := by
  rw [serviceInterrupts_eq]
  split
  · exact .inl rfl
  · split
    · split
      · rename_i source _
        exact .inr (.inr ⟨source, rfl⟩)
      · exact .inr (.inl rfl)
    · exact .inr (.inl rfl)

/-- A processor that is awake and cannot dispatch anything is left as it is. -/
theorem serviceInterrupts_of_idle {s : System β} (awake : s.cpu.halted = false)
    (idle : s.cpu.interruptsEnabled = false ∨ mostUrgent s.pending = none) :
    s.serviceInterrupts = (s, 0) := by
  rw [serviceInterrupts_eq, wake_of_awake awake]
  obtain forbidden | none := idle
  · simp [forbidden]
  · simp [none]

/-- A check for interrupts leaves nothing for a second one to do. -/
theorem serviceInterrupts_again (s : System β) :
    s.serviceInterrupts.1.serviceInterrupts = (s.serviceInterrupts.1, 0) := by
  by_cases pending : s.pending = 0
  · have first := serviceInterrupts_of_none pending
    rw [first, first]
  · by_cases allowed : s.cpu.interruptsEnabled = true
    · cases urgent : mostUrgent s.pending with
      | some source =>
        have first : s.serviceInterrupts = (s.wake.dispatch source, 20) := by
          rw [serviceInterrupts_eq, if_neg pending, if_pos allowed, urgent]
        obtain ⟨forbidden, awake⟩ := s.wake.dispatch_switches source
        rw [first]
        exact serviceInterrupts_of_idle awake (.inl forbidden)
      | none =>
        have first : s.serviceInterrupts = (s.wake, 0) := by
          rw [serviceInterrupts_eq, if_neg pending, if_pos allowed, urgent]
        rw [first]
        exact serviceInterrupts_of_idle rfl (.inr urgent)
    · have forbidden := Bool.eq_false_iff.mpr allowed
      rw [serviceInterrupts_of_forbidden pending forbidden]
      exact serviceInterrupts_of_idle rfl (.inl forbidden)

/-! ## What is dispatched -/

/-- The source whose handler a check for interrupts calls, if it calls one. -/
def dispatched (s : System β) : Option Interrupt :=
  if s.cpu.interruptsEnabled then mostUrgent s.pending else none

/-- The processor with the request of a source taken back. -/
def withoutRequest (s : System β) (source : Interrupt) : System β :=
  let requested := AddressSpace.interruptFlag s.bus
  { s with
    bus := AddressSpace.setInterruptFlag s.bus (requested &&& ~~~ source.mask)
    journal := s.journal.push (.interrupt source s.cpu.pc s.cpu.registers.sp requested
      (AddressSpace.interruptEnable s.bus)) }

/-- A dispatch takes the request back and enters the handler of the source. -/
theorem dispatch_eq_enterHandler (s : System β) (source : Interrupt) :
    s.dispatch source = (s.withoutRequest source).enterHandler source.vector := rfl

/-- A check for interrupts wakes the processor and dispatches the most urgent source, if it is
allowed. -/
theorem serviceInterrupts_of_dispatched {s : System β} {source : Interrupt}
    (urgent : s.dispatched = some source) :
    s.serviceInterrupts = (s.wake.dispatch source, 20) := by
  unfold dispatched at urgent
  split at urgent
  next allowed =>
    have pending : s.pending ≠ 0 := by
      intro none
      rw [none] at urgent
      contradiction
    rw [serviceInterrupts_eq, if_neg pending, if_pos allowed, urgent]
  next => contradiction

/-- A check that dispatches nothing wakes the processor at most. -/
theorem serviceInterrupts_of_not_dispatched {s : System β} (quiet : s.dispatched = none) :
    s.serviceInterrupts.1 = s ∨ s.serviceInterrupts.1 = s.wake := by
  rw [serviceInterrupts_eq]
  unfold dispatched at quiet
  split
  · exact .inl rfl
  · split at quiet
    next allowed =>
      rw [if_pos allowed, quiet]
      exact .inr rfl
    next forbidden =>
      rw [if_neg forbidden]
      exact .inr rfl

/-- A check that dispatches nothing leaves the bus alone. -/
theorem serviceInterrupts_bus_of_not_dispatched {s : System β} (quiet : s.dispatched = none) :
    s.serviceInterrupts.1.bus = s.bus := by
  obtain same | woken := serviceInterrupts_of_not_dispatched quiet
  · rw [same]
  · rw [woken]
    rfl

end Handheld.System
