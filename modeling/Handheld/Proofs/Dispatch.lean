import Mathlib.Data.Nat.Bitwise
import Handheld.Proofs.Call
import Handheld.Proofs.Interrupts
import Handheld.Proofs.Ranges

/-!
# The dispatch of an interrupt

A check for interrupts that finds one pending calls a handler, and the call stores two bytes,
which may set off anything if the stack lies among the device registers or in the ROM area. On a
stack in plain memory they are two bytes and no more, and all that a dispatch does can be told.

The register of the requests has five bits. A dispatch writes back what it reads of it, so it is
one request that is taken back only because nothing else has ever been kept there.

* `serviceInterrupts_of_allowed`: the source that is served has the lowest of the bits set.
* `pushPc_memory`, `dispatch_memory`: what a push and a dispatch leave.
* `stack_apart`: the second byte of a word on the stack does not overwrite the first.
-/

set_option autoImplicit false

namespace Handheld

/-! ## The most urgent request -/

namespace Interrupt

/-- The bit of a source is tested by its mask. -/
theorem masked_iff (source : Interrupt) (value : UInt8) :
    (value &&& source.mask != 0) = value.toNat.testBit source.bit := by
  have mask : source.mask.toNat = 2 ^ source.bit := by
    cases source <;> rfl
  have bit : (value &&& source.mask).toNat =
      2 ^ source.bit * (value.toNat.testBit source.bit).toNat := by
    rw [UInt8.toNat_and, mask, Nat.and_comm]
    exact Nat.two_pow_and _ _
  have positive : 0 < 2 ^ source.bit := Nat.two_pow_pos _
  rw [Bool.eq_iff_iff, bne_iff_ne, Ne, ← UInt8.toNat_inj, bit]
  cases value.toNat.testBit source.bit <;> simp

/-- Among the bits set in a byte the one of a source is the lowest. -/
def IsLowest (source : Interrupt) (value : UInt8) : Prop :=
  value.toNat.testBit source.bit = true ∧ ∀ j < source.bit, value.toNat.testBit j = false

/-- Only one source is the lowest. -/
theorem IsLowest.unique {source other : Interrupt} {value : UInt8}
    (first : source.IsLowest value) (second : other.IsLowest value) : source = other := by
  have notBelow : ¬ source.bit < other.bit := by
    intro below
    have unset := second.2 source.bit below
    exact Bool.false_ne_true (unset.symm.trans first.1)
  have notAbove : ¬ other.bit < source.bit := by
    intro above
    have unset := first.2 other.bit above
    exact Bool.false_ne_true (unset.symm.trans second.1)
  have same : source.bit = other.bit := by omega
  cases source <;> cases other <;> first | rfl | contradiction

end Interrupt

namespace System

/-- The most urgent source is the lowest. -/
theorem isLowest_of_mostUrgent {pending : UInt8} {source : Interrupt}
    (urgent : mostUrgent pending = some source) : source.IsLowest pending := by
  simp only [mostUrgent, Interrupt.byPriority, List.find?_cons, Interrupt.masked_iff,
    Interrupt.bit] at urgent
  unfold Interrupt.IsLowest
  repeat' split at urgent
  all_goals cases urgent
  all_goals
    refine ⟨by assumption, ?_⟩
    intro j below
    simp only [Interrupt.bit] at below
    interval_cases j <;> assumption

/-- If any of the five bits is set there is a source to be served. -/
theorem exists_mostUrgent {pending : UInt8} (known : pending.toNat < 2 ^ 5) (any : pending ≠ 0) :
    ∃ source, mostUrgent pending = some source := by
  cases urgent : mostUrgent pending with
  | some source => exact ⟨source, rfl⟩
  | none =>
    have unset : ∀ source, pending.toNat.testBit (Interrupt.bit source) = false := by
      intro source
      have listed : source ∈ Interrupt.byPriority := by cases source <;> decide
      have passed := List.find?_eq_none.mp urgent source listed
      rwa [source.masked_iff, Bool.not_eq_true] at passed
    have zero : pending.toNat = 0 := by
      apply Nat.zero_of_testBit_eq_false
      intro i
      obtain small | large := Nat.lt_or_ge i 5
      · interval_cases i
        · exact unset .vblank
        · exact unset .lcdStat
        · exact unset .timer
        · exact unset .serial
        · exact unset .joypad
      · apply Nat.testBit_lt_two_pow
        exact Nat.lt_of_lt_of_le known (Nat.pow_le_pow_right (by decide) large)
    exact absurd (UInt8.toNat_inj.mp zero) any

/-- There are five sources that can be pending. -/
theorem pending_lt {β : Type} [AddressSpace β] (s : System β) : s.pending.toNat < 2 ^ 5 := by
  unfold pending
  rw [toNat_and_low _ 5 rfl]
  exact Nat.mod_lt _ (by decide)

/-- With interrupts allowed and some pending, the lowest is dispatched, in twenty cycles. -/
theorem serviceInterrupts_of_allowed {β : Type} [AddressSpace β] {s : System β}
    (pending : s.pending ≠ 0) (allowed : s.cpu.interruptsEnabled = true) :
    ∃ source : Interrupt, source.IsLowest s.pending ∧
      s.serviceInterrupts = (s.wake.dispatch source, 20) := by
  obtain ⟨source, urgent⟩ := exists_mostUrgent s.pending_lt pending
  refine ⟨source, isLowest_of_mostUrgent urgent, ?_⟩
  rw [serviceInterrupts_eq, if_neg pending, if_pos allowed, urgent]

end System

/-! ## The register of the requests -/

namespace Hardware

/-- Storing requests moves no window. -/
theorem resolve_setRequests (hw : Hardware) (value : UInt8) (address : UInt16) :
    (hw.setStored .irq value).resolve address = hw.resolve address :=
  hw.resolve_setStored value (by decide) (by decide) (by decide) address

/-- Neither the device registers nor the windows look at plain memory. -/
theorem stored_storeMemory (hw : Hardware) (place : Place) (value : UInt8) (r : DeviceRegister) :
    (hw.storeMemory place value).stored r = hw.stored r := by
  cases place <;> rfl

end Hardware

/-- Where a byte lies in its memory; the interrupt-enable register follows high RAM. -/
def Place.index : Place → Nat
  | .vram n | .wram n | .oam n | .hram n => n
  | .interruptEnable => 0x7F
  | _ => 0

namespace Hardware

/-- Memories begin at even addresses, and so do their banks. -/
theorem index_resolve (hw : Hardware) {address : UInt16}
    (memory : (hw.resolve address).isMemory = true) :
    (hw.resolve address).index % 2 = address.toNat % 2 := by
  -- The windows of the address space, one after the other. What an address of the ROM, of the RAM
  -- window or of a register stands for is no memory.
  by_cases rom : address < 0x8000
  · have place : (hw.resolve address).isMemory = false := by
      unfold resolve
      rw [if_pos rom]
      split <;> rfl
    rw [place] at memory
    contradiction
  by_cases vram : address < 0xA000
  · rw [hw.resolve_vram ⟨UInt16.not_lt.mp rom, vram⟩]
    rw [Place.index]
    omega
  by_cases sram : address < 0xC000
  · rw [hw.resolve_sram ⟨UInt16.not_lt.mp vram, sram⟩] at memory
    unfold Cartridge.sramPlace at memory
    repeat' split at memory
    all_goals contradiction
  by_cases wram : address < 0xFE00
  · by_cases lower : (0xC000 ≤ address ∧ address < 0xD000) ∨ (0xE000 ≤ address ∧ address < 0xF000)
    · rw [hw.resolve_lower_wram lower]
      rw [Place.index]
      omega
    · rw [hw.resolve_upper_wram (by grind)]
      rw [Place.index]
      omega
  by_cases oam : address < 0xFEA0
  · rw [hw.resolve_oam ⟨UInt16.not_lt.mp wram, oam⟩]
    have base : 0xFE00 ≤ address.toNat := UInt16.le_iff_toNat_le.mp (UInt16.not_lt.mp wram)
    rw [Place.index]
    omega
  by_cases device : address < 0xFF80
  · have place : (hw.resolve address).isMemory = false := by
      unfold resolve
      grind [Place.isMemory]
    rw [place] at memory
    contradiction
  by_cases hram : address < 0xFFFF
  · rw [hw.resolve_hram ⟨UInt16.not_lt.mp device, hram⟩]
    have base : 0xFF80 ≤ address.toNat := UInt16.le_iff_toNat_le.mp (UInt16.not_lt.mp device)
    rw [Place.index]
    omega
  · have last : address = 0xFFFF := by grind
    have place : hw.resolve 0xFFFF = .interruptEnable := rfl
    rw [last, place]
    rfl

variable (hw : Hardware) {sp : UInt16} (highMemory : (hw.resolve (sp - 1)).isMemory = true)
  (lowMemory : (hw.resolve (sp - 2)).isMemory = true)

include highMemory lowMemory

/-- The two bytes of a word on the stack lie apart, since one of their addresses is even. -/
theorem stack_apart : hw.resolve (sp - 1) ≠ hw.resolve (sp - 2) := by
  intro same
  have high := hw.index_resolve highMemory
  have low := hw.index_resolve lowMemory
  rw [same, low, UInt16.toNat_sub, UInt16.toNat_sub] at high
  simp only [UInt16.reduceToNat] at high
  omega

/-- A word put on the stack byte by byte is read back. -/
theorem word_on_stack (value : UInt16) :
    let next := (hw.storeMemory (hw.resolve (sp - 1)) (highByte value)).storeMemory
      (hw.resolve (sp - 2)) (lowByte value)
    word (next.load (hw.resolve (sp - 1))) (next.load (hw.resolve (sp - 2))) = value := by
  intro next
  have first := hw.store_memory highMemory (highByte value)
  have same : (hw.store (hw.resolve (sp - 1)) (highByte value)).resolve (sp - 2) =
      hw.resolve (sp - 2) := by
    rw [first]
    exact hw.resolve_storeMemory _ _ _
  have pushed : next = hw.pushWord sp value := by
    unfold pushWord
    dsimp only
    rw [same, store_memory _ lowMemory, first]
  have reads := System.load_pushWord hw sp value
  rw [same] at reads
  rw [pushed, reads _ highMemory lowMemory, reads _ highMemory lowMemory,
    if_neg (hw.stack_apart highMemory lowMemory), if_pos rfl, if_pos rfl]
  exact word_bytes value

end Hardware

namespace System

/-- A byte written into plain memory is put there, and its origin is forgotten. -/
theorem write_memory (s : System Hardware) {place : Place} (memory : place.isMemory = true)
    (kept : (s.bus.byte? place).isSome = true) (value : UInt8) :
    s.write place value =
      { s with
        bus := s.bus.storeMemory place value
        ledger := s.ledger.clearOrigin place } := by
  have stored : s.store place value = { s with bus := s.bus.storeMemory place value } := by
    cases place <;> first | rfl | contradiction
  have there : present (s.bus.storeMemory place value) place = true := by
    have byte := s.bus.byte?_storeMemory memory kept value place
    rw [if_pos rfl] at byte
    cases place with
    | register => rfl
    | _ => exact congrArg Option.isSome byte
  unfold write
  rw [stored, clearOrigin_eq, if_pos there]

/-- Writing a register pair sets both its halves and clears their origins. -/
theorem writePair_eq {β : Type} [AddressSpace β] (s : System β) (pair : RegisterPair)
    (value : UInt16) :
    s.writePair pair value =
      { s with
        cpu := { s.cpu with registers := s.cpu.registers.setPair pair value }
        ledger := (s.ledger.clearOrigin (.register pair.high)).clearOrigin
          (.register pair.low) } := by
  simp only [writePair, write, store_register, clearOrigin_eq]
  rfl

/-- The program counter put on a stack that lies in plain memory. -/
theorem pushPc_memory (s : System Hardware) (highMemory : (s.resolve (s.sp - 1)).isMemory = true)
    (lowMemory : (s.resolve (s.sp - 2)).isMemory = true) :
    let high := s.resolve (s.sp - 1)
    let low := s.resolve (s.sp - 2)
    s.pushPc =
      { cpu := { s.cpu with registers := s.cpu.registers.setPair .sp (s.sp - 2) }
        bus := (s.bus.storeMemory high (highByte s.cpu.pc)).storeMemory low (lowByte s.cpu.pc)
        ledger := (((s.ledger.clearOrigin high).clearOrigin low).clearOrigin
          (.register .spHigh)).clearOrigin (.register .spLow)
        journal := s.journal } := by
  intro high low
  let upper : System Hardware :=
    { s with
      bus := s.bus.storeMemory high (highByte s.cpu.pc)
      ledger := s.ledger.clearOrigin high }
  have first : s.write high (highByte s.cpu.pc) = upper :=
    s.write_memory highMemory (s.bus.kept_of_resolve highMemory) _
  have same : upper.resolve (s.sp - 2) = low := s.bus.resolve_storeMemory _ _ _
  have memory : (upper.bus.resolve (s.sp - 2)).isMemory = true := by
    rw [← lowMemory]
    exact congrArg Place.isMemory same
  have kept : (upper.bus.byte? low).isSome = true := by
    rw [← same]
    exact upper.bus.kept_of_resolve memory
  have second := upper.write_memory lowMemory kept (lowByte s.cpu.pc)
  unfold pushPc
  dsimp only
  rw [show s.write (s.resolve (s.sp - 1)) _ = upper from first, same, second, writePair_eq]
  rfl

/-! ## The dispatch -/

/-- The call of the handler of a source, from a stack in plain memory. -/
theorem dispatch_memory (s : System Hardware) (source : Interrupt)
    (highMemory : (s.resolve (s.sp - 1)).isMemory = true)
    (lowMemory : (s.resolve (s.sp - 2)).isMemory = true) :
    let high := s.resolve (s.sp - 1)
    let low := s.resolve (s.sp - 2)
    let requested := s.bus.interruptFlag
    s.dispatch source =
      { cpu :=
          { s.cpu with
            registers := s.cpu.registers.setPair .sp (s.sp - 2)
            pc := source.vector
            cycles := s.cpu.cycles + 20
            interruptsEnabled := false }
        bus :=
          ((s.bus.setStored .irq (requested &&& ~~~ source.mask &&& 0x1F)).storeMemory high
            (highByte s.cpu.pc)).storeMemory low (lowByte s.cpu.pc)
        ledger := (((s.ledger.clearOrigin high).clearOrigin low).clearOrigin
          (.register .spHigh)).clearOrigin (.register .spLow)
        journal := s.journal.push (.interrupt source s.cpu.pc s.sp requested
          s.bus.memories.interruptEnable) } := by
  intro high low requested
  let called := ((s.withoutRequest source).spend 20).setInterrupts false
  have sameHigh : called.resolve (called.sp - 1) = high := s.bus.resolve_setRequests _ _
  have sameLow : called.resolve (called.sp - 2) = low := s.bus.resolve_setRequests _ _
  have pushed := called.pushPc_memory (sameHigh ▸ highMemory) (sameLow ▸ lowMemory)
  rw [sameHigh, sameLow] at pushed
  rw [dispatch_eq_enterHandler]
  show called.pushPc.jumpTo source.vector = _
  rw [pushed]
  rfl

end System

namespace Hardware

/-- What is left of the requests when one of them is taken back. -/
theorem requests_without (hw : Hardware) (fits : DeviceRegister.irq.Fits (hw.stored .irq))
    (source : Interrupt) :
    hw.interruptFlag &&& ~~~ source.mask &&& 0x1F = hw.stored .irq &&& ~~~ source.mask := by
  have others : hw.stored .irq &&& 0xE0 = 0 := fits
  have all : hw.stored .irq &&& 0x1F = hw.stored .irq := by
    calc
      hw.stored .irq &&& 0x1F = (hw.stored .irq &&& 0x1F) ||| (hw.stored .irq &&& 0xE0) := by
        rw [others, UInt8.or_zero]
      _ = (0x1F ||| 0xE0) &&& hw.stored .irq := by
        rw [or_and_mask, UInt8.and_comm 0x1F, UInt8.and_comm 0xE0]
      _ = hw.stored .irq := by
        rw [UInt8.and_comm]
        exact UInt8.and_neg_one
  unfold interruptFlag
  rw [all, UInt8.and_assoc, UInt8.and_comm _ 0x1F, ← UInt8.and_assoc, all]

end Hardware

namespace Machine

/-- Whatever a machine has been through, a check for interrupts does nothing if none is pending,
ends a halt if interrupts are forbidden, and otherwise calls the handler of the lowest of the
bits that are pending. The stack has to lie in plain memory, which work RAM and high RAM are;
then nothing else changes but the bit of that request, the two bytes on the stack, the stack
pointer, and what has been on record as the origin of these. -/
theorem interrupts_are_dispatched_exactly (m : Machine) (requests : List Request) :
    let s := (m.reset.session requests).1.toSystem
    let high := s.resolve (s.sp - 1)
    let low := s.resolve (s.sp - 2)
    high.isMemory = true → low.isMemory = true →
      (s.pending = 0 → s.serviceInterrupts = (s, 0)) ∧
      (s.pending ≠ 0 → s.cpu.interruptsEnabled = false →
        s.serviceInterrupts = ({ s with cpu := { s.cpu with halted := false } }, 0)) ∧
      (s.pending ≠ 0 → s.cpu.interruptsEnabled = true →
        ∃ source : Interrupt, source.IsLowest s.pending ∧
          let t := s.serviceInterrupts.1
          s.serviceInterrupts.2 = 20 ∧
          t.cpu =
            { s.cpu with
              registers := s.cpu.registers.setPair .sp (s.sp - 2)
              pc := UInt16.ofNat (0x40 + 8 * source.bit)
              cycles := s.cpu.cycles + 20
              interruptsEnabled := false
              halted := false } ∧
          t.bus =
            ((s.bus.setStored .irq (s.bus.stored .irq &&& ~~~ source.mask)).storeMemory high
              (highByte s.cpu.pc)).storeMemory low (lowByte s.cpu.pc) ∧
          t.loadWord ⟨high, low⟩ = s.cpu.pc ∧
          t.ledger = (((s.ledger.clearOrigin high).clearOrigin low).clearOrigin
            (.register .spHigh)).clearOrigin (.register .spLow) ∧
          t.journal = s.journal.push (.interrupt source s.cpu.pc s.sp s.bus.interruptFlag
            s.bus.memories.interruptEnable)) := by
  intro s high low highMemory lowMemory
  refine ⟨?_, ?_, ?_⟩
  · exact System.serviceInterrupts_of_none
  · exact System.serviceInterrupts_of_forbidden
  · intro pending allowed
    obtain ⟨source, lowest, called⟩ := System.serviceInterrupts_of_allowed pending allowed
    have fits := session_fitting m requests .irq
    have dispatched := s.wake.dispatch_memory source highMemory lowMemory
    refine ⟨source, lowest, ?_⟩
    rw [called, dispatched]
    refine ⟨rfl, rfl, ?_, ?_, rfl, rfl⟩
    · rw [← s.bus.requests_without fits source]
      rfl
    · let taken := s.bus.setStored .irq (s.bus.interruptFlag &&& ~~~ source.mask &&& 0x1F)
      have sameHigh : taken.resolve (s.sp - 1) = high := s.bus.resolve_setRequests _ _
      have sameLow : taken.resolve (s.sp - 2) = low := s.bus.resolve_setRequests _ _
      have stacked := taken.word_on_stack (sameHigh ▸ highMemory) (sameLow ▸ lowMemory) s.cpu.pc
      rw [sameHigh, sameLow] at stacked
      have outsideHigh : ∀ r, high ≠ .register r := s.bus.resolve_ne_register _
      have outsideLow : ∀ r, low ≠ .register r := s.bus.resolve_ne_register _
      show word (System.load _ high) (System.load _ low) = _
      rw [System.load_place _ outsideHigh, System.load_place _ outsideLow]
      exact stacked

/-- The boot program has set the stack pointer to the end of high RAM and allowed interrupts.
The timer and the joypad have asked for attention and are heard, the screen has asked but is not
heard. -/
theorem interrupts_are_dispatched_exactly_to_timer :
    let m := assemble .empty #[0x31, 0xFE, 0xFF, 0xFB]
    let requests : List Request := [.step, .step, .write 0xFFFF 0x1C, .raiseInterrupt 0x16]
    let s := (m.reset.session requests).1.toSystem
    let t := s.serviceInterrupts.1
    (s.resolve (s.sp - 1) = .hram 0x7D ∧ s.resolve (s.sp - 2) = .hram 0x7C) ∧
      (s.pending ≠ 0 ∧ s.cpu.interruptsEnabled = true) ∧
      s.serviceInterrupts.2 = 20 ∧ t.cpu.pc = 0x0050 ∧ t.sp = 0xFFFC ∧
      t.loadWord ⟨.hram 0x7D, .hram 0x7C⟩ = 0x0004 ∧ t.bus.stored .irq = 0x12 := by
  intro m requests s t
  have facts : (s.resolve (s.sp - 1) = .hram 0x7D ∧ s.resolve (s.sp - 2) = .hram 0x7C) ∧
      (s.pending = 0x14 ∧ s.cpu.interruptsEnabled = true) ∧ s.sp = 0xFFFE ∧
      s.cpu.pc = 0x0004 ∧ s.bus.stored .irq = 0x16 := by
    decide +kernel
  obtain ⟨⟨high, low⟩, ⟨pending, allowed⟩, sp, pc, requested⟩ := facts
  have some : s.pending ≠ 0 := by
    rw [pending]
    decide
  have exact := interrupts_are_dispatched_exactly m requests
    (congrArg Place.isMemory high) (congrArg Place.isMemory low)
  obtain ⟨source, lowest, spent, cpu, bus, stacked, -, -⟩ := exact.2.2 some allowed
  have timer : source = .timer := by
    rw [pending] at lowest
    apply lowest.unique
    unfold Interrupt.IsLowest
    decide
  rw [timer] at cpu bus
  refine ⟨⟨high, low⟩, ⟨some, allowed⟩, spent, ?_, ?_, ?_, ?_⟩
  · rw [cpu]
    rfl
  · have moved : t.sp = s.sp - 2 := by
      unfold System.sp
      rw [cpu]
      exact word_bytes (s.sp - 2)
    rw [moved, sp]
    rfl
  · rw [← high, ← low, ← pc]
    exact stacked
  · rw [bus, Hardware.stored_storeMemory, Hardware.stored_storeMemory, Hardware.stored_setStored,
      if_pos rfl, requested]
    rfl

end Machine

end Handheld
