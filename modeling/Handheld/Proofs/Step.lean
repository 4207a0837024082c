import Handheld.Machine
import Handheld.Proofs.Work

/-!
# One step

A step has two halves. First the processor acts: it checks for interrupts and executes
one instruction, or waits for four cycles. Then the devices catch up with what its
counter shows. Where the byte met encodes no instruction there is no second half.

* An instruction that the decoder knows costs between four and 24 cycles, a multiple of four,
  whether or not its branch is taken (`priced_decode`).
* So the first half takes between four and 44 cycles (`cost_of_acted`).
-/

set_option autoImplicit false

namespace Handheld

/-! ## The cost of an instruction -/

/-- What the instructions that the decoder knows cost: at least four cycles, a multiple of four,
and no more than 24 even where a branch is taken. -/
structure Operation.Priced (operation : Operation) : Prop where
  quarter : 4 ∣ operation.cycles.toNat
  least : 4 ≤ operation.cycles.toNat
  most : operation.cycles.toNat + operation.action.extra ≤ 24

/-- What has no condition costs nothing extra. -/
theorem Condition.always_extra (cycles : Nat) : Condition.always.extra cycles = 0 := rfl

/-- What a branch costs extra is in quarters, as its price is. -/
theorem Condition.four_dvd_extra (condition : Condition) {cycles : Nat} (quarter : 4 ∣ cycles) :
    4 ∣ condition.extra cycles := by
  unfold Condition.extra
  split
  · exact Nat.dvd_zero 4
  · exact quarter

/-- What an action may cost extra is in quarters. -/
theorem Action.four_dvd_extra (action : Action) : 4 ∣ action.extra := by
  unfold Action.extra
  split
  · exact Condition.four_dvd_extra _ (Nat.dvd_refl 4)
  · exact Condition.four_dvd_extra _ (Nat.dvd_refl 4)
  · exact Condition.four_dvd_extra _ (by decide)
  · exact Condition.four_dvd_extra _ (by decide)
  · exact Nat.dvd_zero 4

namespace Decoder

variable {β : Type} [AddressSpace β] (registers : Registers) (bus : β)

/-- A condition that is read from an opcode is not met always. -/
theorem conditionOf_extra (index cycles : Nat) : (conditionOf index).extra cycles = cycles := by
  unfold conditionOf
  split <;> rfl

/-- An instruction that is no branch is dearer at HL, and both costs are fair. -/
theorem priced_costAtHl {action : Action} (straight : action.extra = 0) (length : UInt8)
    (index : Nat) {otherwise atHl : UInt32}
    (elsewhere : 4 ∣ otherwise.toNat ∧ 4 ≤ otherwise.toNat ∧ otherwise.toNat ≤ 24)
    (there : 4 ∣ atHl.toNat ∧ 4 ≤ atHl.toNat ∧ atHl.toNat ≤ 24) :
    (plain action length (costAtHl index otherwise atHl)).operation.Priced := by
  obtain ⟨quarter, least, most⟩ : 4 ∣ (costAtHl index otherwise atHl).toNat ∧
      4 ≤ (costAtHl index otherwise atHl).toNat ∧ (costAtHl index otherwise atHl).toNat ≤ 24 := by
    unfold costAtHl
    split
    · exact there
    · exact elsewhere
  refine ⟨quarter, least, ?_⟩
  show (costAtHl index otherwise atHl).toNat + action.extra ≤ 24
  omega

/-- Arithmetic costs nothing extra. -/
theorem arithmeticOf_extra (index : Nat) (operand : Place) :
    (arithmeticOf index operand).extra = 0 := by
  unfold arithmeticOf
  split <;> rfl

/-- Operations of the accumulator cost nothing extra. -/
theorem accumulatorActionOf_extra (index : Nat) : (accumulatorActionOf index).extra = 0 := by
  unfold accumulatorActionOf
  split <;> rfl

/-- Indirect loads are priced. -/
theorem priced_indirectLoad (index : Nat) :
    (indirectLoad registers bus index).operation.Priced := by
  unfold indirectLoad
  split <;> constructor <;>
    simp [indirectLoad.through, indirectLoad.back, indirectLoad.stepping, plain, Action.extra]

/-- The first quarter of the opcodes is priced. -/
theorem priced_firstQuarter (address : UInt16) (y z : Nat) :
    (firstQuarter registers bus address y z).operation.Priced := by
  unfold firstQuarter
  split
  · split <;> constructor <;> simp [plain, Action.extra, Condition.always_extra, conditionOf_extra]
  · split <;> constructor <;> simp [plain, Action.extra]
  · exact priced_indirectLoad registers bus y
  · dsimp only
    split <;> constructor <;> simp [plain, Action.extra]
  · exact priced_costAtHl rfl 1 y (by decide) (by decide)
  · exact priced_costAtHl rfl 1 y (by decide) (by decide)
  · exact priced_costAtHl rfl 2 y (by decide) (by decide)
  · constructor <;> simp [plain, accumulatorActionOf_extra]

/-- The second quarter of the opcodes is priced. -/
theorem priced_secondQuarter (y z : Nat) :
    (secondQuarter registers bus y z).operation.Priced := by
  unfold secondQuarter
  split
  · constructor <;> simp [plain, Action.extra]
  · dsimp only [plain]
    split <;> constructor <;> simp [Action.extra]

/-- The third quarter of the opcodes is priced. -/
theorem priced_thirdQuarter (y z : Nat) : (thirdQuarter registers bus y z).operation.Priced :=
  priced_costAtHl (arithmeticOf_extra y _) 1 z (by decide) (by decide)

/-- The bit instructions are priced. -/
theorem priced_bitInstruction (opcode : UInt8) :
    (bitInstruction registers bus opcode).operation.Priced := by
  unfold bitInstruction
  dsimp only
  apply priced_costAtHl
  · split <;> rfl
  · decide
  · split <;> decide

/-- The fourth quarter of the opcodes is priced, where it is legal. -/
theorem priced_fourthQuarter (address : UInt16) (y z : Nat) :
    let operation := (fourthQuarter registers bus address y z).operation
    operation.isIllegal = true ∨ operation.Priced := by
  intro operation
  unfold operation fourthQuarter
  split
  · right
    split <;> constructor <;> simp [plain, Action.extra, conditionOf_extra]
  · right
    split <;> constructor <;> simp [plain, Action.extra, Condition.always_extra]
  · right
    split <;> constructor <;> simp [plain, Action.extra, conditionOf_extra]
  · split
    · right
      constructor <;> simp [plain, Action.extra, Condition.always_extra]
    · right
      exact priced_bitInstruction registers bus _
    · right
      constructor <;> simp [plain, Action.extra]
    · right
      constructor <;> simp [plain, Action.extra]
    · exact .inl rfl
  · split
    · right
      constructor <;> simp [plain, Action.extra, conditionOf_extra]
    · exact .inl rfl
  · split
    · right
      constructor <;> simp [plain, Action.extra, Condition.always_extra]
    · exact .inl rfl
    · exact .inl rfl
    · exact .inl rfl
    · right
      constructor <;> simp [plain, Action.extra]
  · right
    constructor <;> simp [plain, arithmeticOf_extra]
  · right
    constructor <;> simp [plain, Action.extra]

end Decoder

/-- Whatever is decoded and legal is priced. -/
theorem priced_decode {β : Type} [AddressSpace β] (registers : Registers) (bus : β)
    (address : UInt16) (legal : (decode registers bus address).operation.isIllegal = false) :
    (decode registers bus address).operation.Priced := by
  unfold decode at legal ⊢
  dsimp only at legal ⊢
  split at legal
  · exact Decoder.priced_firstQuarter registers bus address _ _
  · exact Decoder.priced_secondQuarter registers bus _ _
  · exact Decoder.priced_thirdQuarter registers bus _ _
  · obtain illegal | priced := Decoder.priced_fourthQuarter registers bus address _ _
    · rw [illegal] at legal
      contradiction
    · exact priced

/-! ## The two halves of a step -/

namespace Machine

/-- The processor after the first half of a step, unless the byte it meets encodes no
instruction. -/
def acted (m : Machine) : Option (System Hardware) :=
  let s := m.serviceInterrupts.1
  if s.cpu.halted then
    some (s.spend 4)
  else
    let (s, operation) := s.decode s.cpu.pc
    if operation.isIllegal then none else some (s.execute operation)

/-- A step in which the processor acts is finished by the devices, and reports its cycles. -/
theorem step_of_acted {m : Machine} {s : System Hardware} (acts : m.acted = some s) :
    m.step =
      ((finishStep s m.cpu.cycles m.quit).1, .ok (finishStep s m.cpu.cycles m.quit).2) := by
  simp only [acted] at acts
  simp only [step]
  split at acts
  next waits =>
    cases acts
    rw [if_pos waits]
  next awake =>
    rw [if_neg awake]
    split at acts
    next => contradiction
    next legal =>
      cases acts
      rw [if_neg legal]

/-- A machine that is stuck is left as the check for interrupts left it, but for the
remarks of the decoder. -/
theorem system_of_not_acted {m : Machine} (stuck : m.acted = none) :
    (∃ error, m.step.2 = .error error) ∧
      m.step.1.toSystem = (m.serviceInterrupts.1.decode m.serviceInterrupts.1.cpu.pc).1 := by
  simp only [acted] at stuck
  simp only [step]
  split at stuck
  next => contradiction
  next awake =>
    rw [if_neg awake]
    split at stuck
    next illegal =>
      rw [if_pos illegal]
      exact ⟨⟨_, rfl⟩, rfl⟩
    next => contradiction

/-- A step in which the processor is stuck fails, and is no more than the interrupt check. -/
theorem step_of_not_acted {m : Machine} (stuck : m.acted = none) :
    (∃ error, m.step.2 = .error error) ∧ m.step.1.cpu = m.serviceInterrupts.1.cpu ∧
      m.step.1.bus = m.serviceInterrupts.1.bus := by
  obtain ⟨fails, system⟩ := system_of_not_acted stuck
  rw [system]
  exact ⟨fails, System.decode_cpu _ _, System.decode_bus _ _⟩

/-- The first half of a step takes between four and 44 cycles, a multiple of four: twenty if it
calls a handler, and then the cost of an instruction, or four cycles of waiting. -/
theorem cost_of_acted {m : Machine} {s : System Hardware} (acts : m.acted = some s) :
    ∃ n, (4 ∣ n ∧ 4 ≤ n ∧ n ≤ 44) ∧ System.Proceeds m.toSystem n s := by
  obtain ⟨serviced, called, checked⟩ := (System.Proceeds.refl m.toSystem).serviceInterrupts
  simp only [acted] at acts
  split at acts
  next =>
    cases acts
    refine ⟨0 + serviced + 4, ?_, checked.spendCycles 4⟩
    obtain rfl | rfl := called
    · decide
    · decide
  next =>
    split at acts
    next => contradiction
    next legal =>
      cases acts
      have priced := priced_decode _ _ _ (Bool.eq_false_iff.mpr legal)
      obtain ⟨more, taken, executed⟩ := (checked.decode _).execute
        (m.serviceInterrupts.1.decode m.serviceInterrupts.1.cpu.pc).2
      rw [System.decode_operation] at taken executed
      have quarter := priced.quarter
      have least := priced.least
      have most := priced.most
      have branch := Action.four_dvd_extra
        (decode m.serviceInterrupts.1.cpu.registers m.serviceInterrupts.1.bus
          m.serviceInterrupts.1.cpu.pc).operation.action
      refine ⟨_, ?_, executed⟩
      omega

/-- The first half of a step takes at most 56 cycles. -/
theorem proceeds_of_acted {m : Machine} {s : System Hardware} (acts : m.acted = some s) :
    ∃ n ≤ 56, System.Proceeds m.toSystem n s := by
  obtain ⟨n, ⟨-, -, most⟩, proceeds⟩ := cost_of_acted acts
  exact ⟨n, by omega, proceeds⟩

/-- A machine that is stuck has checked for interrupts and done nothing else. -/
theorem proceeds_of_not_acted {m : Machine} (stuck : m.acted = none) :
    ∃ n ≤ 20, System.Proceeds m.toSystem n m.step.1.toSystem := by
  obtain ⟨n, called, checked⟩ := (System.Proceeds.refl m.toSystem).serviceInterrupts
  obtain ⟨-, cpu, bus⟩ := step_of_not_acted stuck
  rw [Nat.zero_add] at checked
  exact ⟨n, by omega, checked.booked cpu bus⟩

/-- The end of a step leaves the processor alone. -/
theorem finishStep_cpu (s : System Hardware) (start : UInt64) (quit : Bool) :
    (finishStep s start quit).1.cpu = s.cpu := by
  unfold finishStep
  dsimp only
  split <;> rfl

/-- The devices catch up, and a request to start anew has been heard. -/
theorem finishStep_bus (s : System Hardware) (start : UInt64) (quit : Bool) :
    (finishStep s start quit).1.bus =
      { (s.bus.update s.cpu.cycles s.cpu.speed).1 with rebootRequested := false } := by
  unfold finishStep
  dsimp only
  split
  next => rfl
  next quiet =>
    have heard := Bool.eq_false_iff.mpr quiet
    show (s.bus.update s.cpu.cycles s.cpu.speed).1 = _
    rw [← heard]

/-- Registers, line and cartridge are as the devices leave them. -/
theorem finishStep_parts (s : System Hardware) (start : UInt64) (quit : Bool) :
    let hw := (s.bus.update s.cpu.cycles s.cpu.speed).1
    let next := (finishStep s start quit).1.bus
    next.lineStart = hw.lineStart ∧ (∀ r, next.stored r = hw.stored r) ∧
      next.cartridge = hw.cartridge := by
  rw [finishStep_bus]
  generalize (s.bus.update s.cpu.cycles s.cpu.speed).1 = hw
  exact ⟨rfl, fun _ => rfl, rfl⟩

/-- A frame is done exactly if the devices have just ended one. -/
theorem finishStep_frameDone (s : System Hardware) (start : UInt64) (quit : Bool) :
    (finishStep s start quit).1.frameDone = (s.bus.update s.cpu.cycles s.cpu.speed).2 := by
  unfold finishStep
  dsimp only
  split <;> rfl

/-- The cycles of a step are those gone since its start. -/
theorem finishStep_spent (s : System Hardware) (start : UInt64) (quit : Bool) :
    (finishStep s start quit).2 = (s.cpu.cycles - start).toUInt32 := by
  unfold finishStep
  dsimp only
  split <;> rfl

/-- Whatever comes of it, a step takes at most 56 cycles. -/
theorem step_cycles (m : Machine) :
    ∃ n ≤ 56, m.step.1.cpu.cycles = m.cpu.cycles + UInt64.ofNat n := by
  cases acts : m.acted with
  | some s =>
    obtain ⟨n, few, proceeds⟩ := proceeds_of_acted acts
    rw [step_of_acted acts, finishStep_cpu]
    exact ⟨n, few, proceeds.cycles_eq⟩
  | none =>
    obtain ⟨n, few, proceeds⟩ := proceeds_of_not_acted acts
    exact ⟨n, by omega, proceeds.cycles_eq⟩

/-- A short time is reported in full. -/
theorem toNat_reported {before now : UInt64} {n : Nat} (short : n < 2 ^ 32)
    (later : now = before + UInt64.ofNat n) : (now - before).toUInt32.toNat = n := by
  have fits : n < UInt64.size := Nat.lt_trans short (by decide)
  have gone : now - before = UInt64.ofNat n := by
    rw [later, UInt64.add_comm, UInt64.add_sub_cancel]
  rw [gone, UInt64.toNat_toUInt32, UInt64.toNat_ofNat_of_lt' fits]
  exact Nat.mod_eq_of_lt short

end Machine

end Handheld
