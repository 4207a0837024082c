import Handheld.Proofs.Hardware.Resolve
import Handheld.Proofs.Interrupts
import Handheld.Proofs.Session

/-!
# Bytes that encode no instruction

Eleven bytes encode no instruction. A machine that meets one of them, awake and after
its check for interrupts, is stuck: the step reports the byte and its address and
leaves the machine as the check left it, and every later step or run does the same
without any change at all.

The check may already have called an interrupt handler, and the push of the program
counter may have reached any device. It is the second check that cannot do anything:
interrupts are forbidden by then, or there was nothing to dispatch in the first place.
-/

set_option autoImplicit false

namespace Handheld

/-- The bytes that encode no instruction. -/
def unassignedOpcodes : List UInt8 :=
  [0xD3, 0xDB, 0xDD, 0xE3, 0xE4, 0xEB, 0xEC, 0xED, 0xF4, 0xFC, 0xFD]

/-- An unassigned byte is decoded as such, and the decoder remarks on nothing. -/
theorem decode_of_unassigned {β : Type} [AddressSpace β] (registers : Registers) (bus : β)
    (address : UInt16) (unassigned : AddressSpace.read bus address ∈ unassignedOpcodes) :
    decode registers bus address = { operation := .illegal } := by
  unfold decode
  generalize AddressSpace.read bus address = opcode at unassigned
  simp only [unassignedOpcodes, List.mem_cons, List.not_mem_nil, or_false] at unassigned
  rcases unassigned with rfl | rfl | rfl | rfl | rfl | rfl | rfl | rfl | rfl | rfl | rfl <;> rfl

namespace Machine

/-- The machine after the check for interrupts with which a step begins. -/
def afterInterrupts (m : Machine) : Machine := m.within fun s => s.serviceInterrupts.1

/-- The machine is awake, and the byte at its program counter encodes no instruction. -/
def IsStuck (m : Machine) : Prop :=
  m.cpu.halted = false ∧ m.read m.cpu.pc ∈ unassignedOpcodes

/-- The error that reports the byte at the program counter. -/
def refusal (m : Machine) : StepError := .illegalOpcode (m.read m.cpu.pc) m.cpu.pc

/-- What a machine that is stuck replies to a step or a run. A run ends before its
first step if someone asked to quit or if no cycles are granted. -/
def stuckReply (m : Machine) : Request → Reply
  | .run limit =>
    .stopped
      (if m.quit then .ok .quit else if limit = some 0 then .ok .cycleLimit
        else .error m.refusal)
  | _ => .stepped (.error m.refusal)

/-- A read of the machine is a read of its bus. -/
theorem read_eq (m : Machine) (address : UInt16) :
    m.read address = AddressSpace.read m.bus address :=
  m.load_resolve address

/-! ## A step -/

/-- A second check for interrupts changes nothing. -/
theorem afterInterrupts_again (m : Machine) :
    m.afterInterrupts.afterInterrupts = m.afterInterrupts := by
  have again := congrArg Prod.fst m.serviceInterrupts_again
  unfold afterInterrupts within
  simp only [again]

/-- Decoding the byte that has the machine stuck remarks on nothing. -/
theorem decode_of_isStuck {m : Machine} (stuck : m.IsStuck) :
    m.decode m.cpu.pc = (m.toSystem, .illegal) := by
  have unassigned := stuck.2
  rw [read_eq] at unassigned
  unfold System.decode
  rw [decode_of_unassigned m.cpu.registers m.bus m.cpu.pc unassigned]
  rfl

/-- A step that finds the machine stuck does nothing after the check for interrupts. -/
theorem step_of_isStuck (m : Machine) (stuck : m.afterInterrupts.IsStuck) :
    m.step = (m.afterInterrupts, .error m.afterInterrupts.refusal) := by
  have awake : m.serviceInterrupts.1.cpu.halted = false := stuck.1
  have decoded : m.serviceInterrupts.1.decode m.serviceInterrupts.1.cpu.pc =
      (m.serviceInterrupts.1, .illegal) := decode_of_isStuck stuck
  have illegal : Operation.illegal.isIllegal = true := rfl
  unfold refusal
  rw [read_eq]
  simp only [step, awake, decoded, illegal, Bool.false_eq_true, if_false, if_true]
  rfl

/-! ## Runs -/

/-- Any number of cycles but zero takes a step. -/
theorem stepBudget_pos {limit : Option UInt64} (granted : limit ≠ some 0) :
    0 < stepBudget limit := by
  cases limit with
  | none => decide
  | some limit =>
    have : limit.toNat ≠ 0 := by
      intro zero
      exact granted (congrArg some (UInt64.toNat_inj.mp zero))
    simp only [stepBudget]
    omega

/-- At the start of a run no cycles have gone by. -/
theorem limitReached_self (m : Machine) (limit : Option UInt64) :
    m.limitReached m.cpu.cycles limit = decide (limit = some 0) := by
  cases limit with
  | none => rfl
  | some limit =>
    unfold limitReached cyclesSince
    rw [UInt64.sub_self]
    simp

/-- A machine whose step fails without a change is not changed by a run either, and
the run fails the same way unless it ends before its first step. -/
theorem run_of_step_error {m : Machine} {error : StepError} (fails : m.step = (m, .error error))
    (limit : Option UInt64) :
    m.run limit =
      (m, if m.quit then .ok .quit else if limit = some 0 then .ok .cycleLimit
        else .error error) := by
  unfold run
  cases budget : stepBudget limit with
  | zero =>
    have spent : limit = some 0 := by
      apply Classical.byContradiction
      intro granted
      exact absurd budget (Nat.pos_iff_ne_zero.mp (stepBudget_pos granted))
    unfold runSteps
    rw [if_pos spent]
    split <;> rfl
  | succ budget =>
    unfold runSteps
    rw [limitReached_self, fails]
    simp only [decide_eq_true_eq]
    split
    · rfl
    · split <;> rfl

/-! ## Steps and runs in any order -/

/-- A request for a step or a run. -/
def IsAdvance (request : Request) : Prop :=
  request = .step ∨ ∃ limit, request = .run limit

/-- A machine whose step fails without a change answers every step and every run alike,
and stays as it is. -/
theorem perform_of_step_error {m : Machine} (fails : m.step = (m, .error m.refusal))
    {request : Request} (advance : IsAdvance request) :
    m.perform request = (m, m.stuckReply request) := by
  obtain rfl | ⟨limit, rfl⟩ := advance
  · show (m.step.1, Reply.stepped m.step.2) = _
    rw [fails]
    rfl
  · show ((m.run limit).1, Reply.stopped (m.run limit).2) = _
    rw [run_of_step_error fails]
    rfl

/-- A machine that is stuck after its check for interrupts reports the byte that has it
stuck. The step leaves it as the check did, and no step or run that follows, however
many there are and in whichever order, brings another answer or any change. -/
theorem illegal_opcode_is_final (m : Machine) (stuck : m.afterInterrupts.IsStuck) :
    let stopped := m.afterInterrupts
    m.step =
        (stopped, .error (.illegalOpcode (stopped.read stopped.cpu.pc) stopped.cpu.pc)) ∧
      ∀ requests : List Request, (∀ request ∈ requests, IsAdvance request) →
        (stopped.session requests).1 = stopped ∧
          (stopped.session requests).2.map (fun seen => seen.reply) =
            requests.map stopped.stuckReply := by
  intro stopped
  have fails : stopped.step = (stopped, .error stopped.refusal) := by
    -- The check of this step finds nothing to do, so the byte is still the one met before.
    have again : stopped.afterInterrupts = stopped := m.afterInterrupts_again
    have step := stopped.step_of_isStuck (by rw [again]; exact stuck)
    rw [again] at step
    exact step
  refine ⟨m.step_of_isStuck stuck, ?_⟩
  intro requests advances
  induction requests with
  | nil => exact ⟨rfl, rfl⟩
  | cons request requests ih =>
    have first := perform_of_step_error fails (advances request (by simp))
    obtain ⟨unchanged, replies⟩ := ih fun later mem => advances later (by simp [mem])
    simp only [session, observe, first, List.map_cons]
    exact ⟨unchanged, by rw [replies]⟩

/-- A machine that waits for an interrupt while one is pending. Its boot image, which
covers the handlers, is made of bytes that encode no instruction. -/
def waitingUnderBadBoot : Machine :=
  let memories : Memories :=
    { boot := Array.replicate 0x80 0xDD, interruptEnable := Interrupt.vblank.mask }
  { cpu :=
      { halted := true
        interruptsEnabled := true
        registers := ({} : Registers).setPair .sp 0xFFFE }
    bus := { Hardware.assemble .empty #[] with memories }.raiseInterrupt Interrupt.vblank.mask }

/-- The interrupt is dispatched, and its handler is where the machine ends. -/
theorem illegal_opcode_is_final_in_handler :
    let m := waitingUnderBadBoot
    m.cpu.halted = true ∧ m.afterInterrupts.IsStuck ∧
      m.step = (m.afterInterrupts, .error (.illegalOpcode 0xDD 0x0040)) ∧
      (m.afterInterrupts.session [.step, .run (some 1000), .run none]).1 = m.afterInterrupts := by
  intro m
  have handler : m.afterInterrupts.cpu.pc = 0x0040 := by decide
  have opcode : m.afterInterrupts.read 0x0040 = 0xDD := by decide +kernel
  have unassigned : m.afterInterrupts.read m.afterInterrupts.cpu.pc ∈ unassignedOpcodes := by
    rw [handler, opcode]
    decide
  have stuck : m.afterInterrupts.IsStuck := ⟨by decide, unassigned⟩
  obtain ⟨step, later⟩ := illegal_opcode_is_final m stuck
  rw [handler, opcode] at step
  exact ⟨rfl, stuck, step, (later _ (by simp [IsAdvance])).1⟩

end Machine

end Handheld
