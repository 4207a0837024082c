import Handheld.Proofs.Hardware.Memory
import Handheld.Proofs.Word

/-!
# Calls

A call puts the address of the next instruction below the stack pointer, and only then
it reads the word that tells where to go. So it goes where the word said when the call
was decoded exactly if neither store of the push makes a byte of that word read
differently. In plain memory that is a question of what overlaps: a byte of the word
that the push has overwritten must have been the byte written there.
-/

set_option autoImplicit false

namespace Handheld

/-- The condition of the call that a byte encodes. -/
def callCondition? : UInt8 → Option Condition
  | 0xC4 => some .nz
  | 0xCC => some .z
  | 0xD4 => some .nc
  | 0xDC => some .c
  | 0xCD => some .always
  | _ => none

/-- A call is decoded to the two places that follow its opcode, without remarks. -/
theorem decode_of_call {β : Type} [AddressSpace β] (registers : Registers) (bus : β)
    (address : UInt16) {condition : Condition}
    (encoded : callCondition? (AddressSpace.read bus address) = some condition) :
    decode registers bus address =
      Decoder.plain (.call condition (Decoder.immediateWord bus address)) 3
        (if condition = .always then 24 else 12) := by
  unfold decode
  generalize AddressSpace.read bus address = opcode at encoded ⊢
  unfold callCondition? at encoded
  split at encoded
  all_goals
    first
    | cases encoded; rfl
    | contradiction

/-! ## The push -/

/-- The hardware after a word was put below a stack pointer, its upper byte first. -/
def Hardware.pushWord (hw : Hardware) (sp value : UInt16) : Hardware :=
  let first := hw.store (hw.resolve (sp - 1)) (highByte value)
  first.store (first.resolve (sp - 2)) (lowByte value)

namespace System

/-- A byte stored at an address goes to the hardware and leaves the processor alone. -/
theorem store_resolve (s : System Hardware) (address : UInt16) (value : UInt8) :
    (s.store (s.resolve address) value).bus = s.bus.store (s.bus.resolve address) value ∧
      (s.store (s.resolve address) value).cpu = s.cpu := by
  have outside : ∀ r, s.resolve address ≠ .register r := s.bus.resolve_ne_register address
  rw [store_place s outside]
  exact ⟨rfl, rfl⟩

/-- The program counter goes to the hardware, and the stack pointer moves down. -/
theorem pushPc_eq (s : System Hardware) :
    s.pushPc.bus = s.bus.pushWord s.sp s.cpu.pc ∧
      s.pushPc.cpu =
        { s.cpu with registers := s.cpu.registers.setPair .sp (s.sp - 2) } := by
  obtain ⟨firstBus, firstCpu⟩ := s.store_resolve (s.sp - 1) (highByte s.cpu.pc)
  rw [← write_bus] at firstBus
  rw [← write_cpu] at firstCpu
  generalize upper : s.write (s.resolve (s.sp - 1)) (highByte s.cpu.pc) = next
    at firstBus firstCpu
  obtain ⟨secondBus, secondCpu⟩ := next.store_resolve (s.sp - 2) (lowByte s.cpu.pc)
  constructor
  · simp only [pushPc, upper, writePair, write_bus, store_register, setRegister_bus]
    rw [secondBus, firstBus]
    rfl
  · simp only [pushPc, upper, writePair, write_cpu, store_register, setRegister_cpu]
    rw [secondCpu, firstCpu]
    rfl

/-! ## The call -/

/-- What a call that is taken leaves of the hardware and of the processor. The word is
read from the hardware as the push left it. -/
theorem execute_call (s : System Hardware) {operation : Operation} {condition : Condition}
    {high low : UInt16}
    (call : operation.action = .call condition ⟨s.resolve high, s.resolve low⟩)
    (plain : operation.hlStep = 0) (taken : condition.holds s.flags = true) :
    let next := s.cpu.pc + operation.length.toUInt16
    let ticked := { s.bus with now := s.cpu.cycles + operation.cycles.toUInt64 }
    let called := s.execute operation
    called.bus = ticked.pushWord s.sp next ∧
      called.cpu.registers = s.cpu.registers.setPair .sp (s.sp - 2) ∧
      called.cpu.pc =
        word (called.bus.load (s.resolve high)) (called.bus.load (s.resolve low)) := by
  intro next ticked called
  let marked := (s.markInstruction s.cpu.pc operation.length).advance operation
  have markedBus : marked.bus = ticked := by
    show ({ (s.markInstruction _ _).bus with
      now := (s.markInstruction _ _).cpu.cycles + operation.cycles.toUInt64 } : Hardware) = ticked
    rw [markInstruction_bus, markInstruction_cpu]
  have markedCpu : marked.cpu.registers = s.cpu.registers ∧ marked.cpu.pc = next := by
    show (s.markInstruction _ _).cpu.registers = _ ∧
      (s.markInstruction _ _).cpu.pc + operation.length.toUInt16 = _
    rw [markInstruction_cpu]
    exact ⟨rfl, rfl⟩
  obtain ⟨registers, pc⟩ := markedCpu
  let ready := if condition = .always then marked else marked.spend 12
  have opened : called =
      ready.pushPc.jumpTo (ready.pushPc.loadWord ⟨s.resolve high, s.resolve low⟩) := by
    have holds : condition.holds marked.flags = true := by
      rw [flags, registers]
      exact taken
    show (marked.act operation.action).stepHl operation.hlStep = _
    rw [call, plain]
    exact if_pos holds
  have readyBus : ready.bus = ticked := by
    unfold ready
    split <;> exact markedBus
  have readyCpu : ready.cpu.registers = s.cpu.registers ∧ ready.cpu.pc = next := by
    unfold ready
    split <;> exact ⟨registers, pc⟩
  obtain ⟨readyRegisters, readyPc⟩ := readyCpu
  have readySp : ready.sp = s.sp := by
    rw [sp, readyRegisters]
    rfl
  obtain ⟨pushedBus, pushedCpu⟩ := ready.pushPc_eq
  rw [readyBus, readySp, readyPc] at pushedBus
  rw [readyRegisters, readySp] at pushedCpu
  have calledBus : called.bus = ready.pushPc.bus := by rw [opened]; rfl
  refine ⟨calledBus.trans pushedBus, ?_, ?_⟩
  · rw [opened, jumpTo_cpu, pushedCpu]
  · have upper : ready.pushPc.load (s.resolve high) = ready.pushPc.bus.load (s.resolve high) :=
      load_place _ (s.bus.resolve_ne_register high)
    have lower : ready.pushPc.load (s.resolve low) = ready.pushPc.bus.load (s.resolve low) :=
      load_place _ (s.bus.resolve_ne_register low)
    rw [calledBus, opened, ← upper, ← lower]
    rfl

/-! ## The operand -/

/-- The control register of the serial interface shows no opcode of a call: some bits
of it are always set. -/
theorem callCondition?_serialControl (hw : Hardware) (stored : UInt8) :
    callCondition? (hw.registerShows .sc stored) = none := by
  have ones : hw.registerShows .sc stored &&& 0x7C = 0x7C := or_and_self _ _
  generalize hw.registerShows .sc stored = opcode at ones ⊢
  unfold callCondition?
  split <;> first | rfl | contradiction

/-- No byte of a call is the divider, so what its operand reads does not depend on the
time: the two registers in front of the divider never show the opcode of a call. -/
theorem operand_ne_divider (hw : Hardware) {address : UInt16} {condition : Condition}
    (encoded : callCondition? (AddressSpace.read hw address) = some condition) :
    hw.resolve (address + 1) ≠ .io 4 ∧ hw.resolve (address + 2) ≠ .io 4 := by
  constructor
  · intro divider
    have distance : (address.toNat + 1) % 2 ^ 16 = 0xFF04 :=
      (UInt16.toNat_add address 1).symm.trans (Hardware.toNat_of_resolve_io divider)
    have unlisted : address = 0xFF03 := by
      have := address.toNat_lt
      exact UInt16.toNat_inj.mp (show address.toNat = 0xFF03 by omega)
    subst unlisted
    have shown : AddressSpace.read hw 0xFF03 = 0xFF := rfl
    rw [shown] at encoded
    contradiction
  · intro divider
    have distance : (address.toNat + 2) % 2 ^ 16 = 0xFF04 :=
      (UInt16.toNat_add address 2).symm.trans (Hardware.toNat_of_resolve_io divider)
    have serial : address = 0xFF02 := by
      have := address.toNat_lt
      exact UInt16.toNat_inj.mp (show address.toNat = 0xFF02 by omega)
    subst serial
    have shown : AddressSpace.read hw 0xFF02 = hw.registerShows .sc (hw.stored .sc) := rfl
    rw [shown, callCondition?_serialControl] at encoded
    contradiction

/-- What a place reads after a push into plain memory. -/
theorem load_pushWord (hw : Hardware) (sp value : UInt16) (place : Place)
    (highMemory : (hw.resolve (sp - 1)).isMemory = true)
    (lowMemory : ((hw.store (hw.resolve (sp - 1)) (highByte value)).resolve (sp - 2)).isMemory =
      true) :
    (hw.pushWord sp value).load place =
      if place = (hw.store (hw.resolve (sp - 1)) (highByte value)).resolve (sp - 2) then
        lowByte value
      else if place = hw.resolve (sp - 1) then highByte value
      else hw.load place := by
  unfold Hardware.pushWord
  rw [Hardware.load_store_memory _ lowMemory (Hardware.kept_of_resolve _ lowMemory),
    Hardware.load_store_memory _ highMemory (Hardware.kept_of_resolve _ highMemory)]

/-- A byte that two stores may have overwritten is unchanged exactly if the later of those
that did wrote what was there. -/
theorem overwritten_iff {place low high : Place} {lower upper value : UInt8} :
    (if place = low then lower else if place = high then upper else value) = value ↔
      (place = low → value = lower) ∧ (place = high → place ≠ low → value = upper) := by
  by_cases later : place = low
  · simp [later, eq_comm]
  · by_cases earlier : place = high
    · rw [if_neg later, if_pos earlier]
      constructor
      · intro kept
        exact ⟨fun same => absurd same later, fun _ _ => kept.symm⟩
      · intro kept
        exact (kept.2 earlier later).symm
    · simp [later, earlier]

/-- A call that is taken stores the address of the next instruction below the stack
pointer, wherever that points. It goes where its operand said when it was decoded exactly
if the two bytes of the operand read the same after the push; with a stack in plain
memory, exactly if each of them that was overwritten had been the byte written there. -/
theorem call_reaches_operand_iff (s : System Hardware) (address : UInt16) {condition : Condition}
    (encoded : callCondition? (AddressSpace.read s.bus address) = some condition)
    (taken : condition.holds s.flags = true) :
    let decoded := s.decode address
    let called := decoded.1.execute decoded.2
    let target := Decoder.immediateWord s.bus address
    let next := s.cpu.pc + 3
    let ticked := { s.bus with now := s.cpu.cycles + decoded.2.cycles.toUInt64 }
    let high := ticked.resolve (s.sp - 1)
    let low := (ticked.store high (highByte next)).resolve (s.sp - 2)
    called.bus = (ticked.store high (highByte next)).store low (lowByte next) ∧
      called.sp = s.sp - 2 ∧
      (called.cpu.pc = Decoder.addressAt s.bus target ↔
        called.bus.load target.high = s.bus.load target.high ∧
          called.bus.load target.low = s.bus.load target.low) ∧
      (high.isMemory = true → low.isMemory = true →
        (called.cpu.pc = Decoder.addressAt s.bus target ↔
          ∀ place ∈ [target.high, target.low],
            (place = low → s.bus.load place = lowByte next) ∧
              (place = high → place ≠ low → s.bus.load place = highByte next))) := by
  intro decoded called target next ticked high low
  have opened : decoded =
      (s, { action := .call condition target, length := 3
            cycles := if condition = .always then 24 else 12 }) := by
    unfold decoded System.decode
    rw [decode_of_call _ _ _ encoded]
    rfl
  have calledEq : called = s.execute decoded.2 := by
    unfold called
    rw [opened]
  have nextEq : s.cpu.pc + decoded.2.length.toUInt16 = next := by
    rw [opened]
    rfl
  have action : decoded.2.action = .call condition target := by rw [opened]
  have plain : decoded.2.hlStep = 0 := by rw [opened]
  obtain ⟨bus, registers, pc⟩ := s.execute_call action plain taken
  rw [← calledEq] at bus registers pc
  rw [nextEq] at bus
  have reads : called.cpu.pc = Decoder.addressAt s.bus target ↔
      called.bus.load target.high = s.bus.load target.high ∧
        called.bus.load target.low = s.bus.load target.low := by
    rw [pc]
    exact word_inj
  refine ⟨bus, ?_, reads, ?_⟩
  · rw [sp, registers]
    exact word_bytes (s.sp - 2)
  · intro highMemory lowMemory
    have same : ∀ place ∈ [target.high, target.low],
        (called.bus.load place = s.bus.load place ↔
          (place = low → s.bus.load place = lowByte next) ∧
            (place = high → place ≠ low → s.bus.load place = highByte next)) := by
      intro place operand
      -- The call has spent its cycles before the operand is read, which only the divider shows.
      have still : place ≠ .io 4 := by
        obtain ⟨first, second⟩ := operand_ne_divider s.bus encoded
        simp only [List.mem_cons, List.not_mem_nil, or_false] at operand
        obtain rfl | rfl := operand
        · exact second
        · exact first
      rw [bus, load_pushWord _ _ _ _ highMemory lowMemory, Hardware.load_now _ _ still]
      exact overwritten_iff
    rw [reads, same _ (by simp), same _ (by simp)]
    simp

/-- A call of D000 in high RAM, with the stack pointer wherever asked for. -/
def callInHighRam (sp : UInt16) : System Hardware where
  cpu := { registers := ({} : Registers).setPair .sp sp, pc := 0xFF80 }
  bus :=
    { Hardware.assemble .empty #[] with
      memories := { hram := ((Vector.replicate _ 0).set 0 0xCD).set 2 0xD0 } }

/-- With the stack elsewhere the call goes where it should. -/
theorem call_reaches_operand_of_stack_elsewhere :
    let s := callInHighRam 0xFFFE
    let called := (s.decode 0xFF80).1.execute (s.decode 0xFF80).2
    callCondition? (AddressSpace.read s.bus 0xFF80) = some .always ∧
      Condition.holds s.flags .always = true ∧ called.sp = 0xFFFC ∧ called.cpu.pc = 0xD000 := by
  intro s called
  have encoded : callCondition? (AddressSpace.read s.bus 0xFF80) = some .always := by decide
  have taken : Condition.holds s.flags .always = true := by decide
  obtain ⟨-, sp, -, overlap⟩ := s.call_reaches_operand_iff 0xFF80 encoded taken
  have operand : Decoder.addressAt s.bus (Decoder.immediateWord s.bus 0xFF80) = 0xD000 := by decide
  refine ⟨encoded, taken, sp.trans (by decide), ?_⟩
  rw [← operand]
  exact (overlap (by decide) (by decide)).mpr (by decide +kernel)

/-- With the stack right behind it the call goes to the address it has just pushed. -/
theorem call_misses_operand_under_stack :
    let s := callInHighRam 0xFF83
    let called := (s.decode 0xFF80).1.execute (s.decode 0xFF80).2
    callCondition? (AddressSpace.read s.bus 0xFF80) = some .always ∧
      Condition.holds s.flags .always = true ∧
      Decoder.addressAt s.bus (Decoder.immediateWord s.bus 0xFF80) = 0xD000 ∧
      called.cpu.pc = 0xFF83 := by
  decide +kernel

end System

end Handheld
