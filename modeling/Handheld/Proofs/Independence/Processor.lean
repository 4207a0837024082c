import Handheld.Proofs.Independence.Congruence
import Handheld.Proofs.System

/-!
# The processor does not look at its ledger

Two processors at work agree if they have the same registers, address spaces that they
cannot tell apart, and the same events since they were last compared; their ledgers may
hold anything. This file shows that whatever a processor does keeps the agreement:

* reading, and resolving an address, gives the same on both sides;
* each function through which an instruction touches bytes (`store`, `write`,
  `move`, `mark`, ...) keeps the agreement, since the ledger it changes is never
  asked for a value;
* so does the stack, every action, decoding, the execution of an operation, and
  the dispatch of an interrupt.

What follows the first two groups is put together from them, so that a new action
needs one line here.
-/

set_option autoImplicit false

namespace Handheld.System

variable {β : Type}

/-- Agreement on everything but what is on record about the bytes, since the
journals were `past` and `past'`. The address spaces are compared by `Same`. -/
structure Agree (Same : β → β → Prop) (past past' : Journal) (s s' : System β) : Prop where
  cpu : s.cpu = s'.cpu
  bus : Same s.bus s'.bus
  journal : ∃ events : Journal, s.journal = past ++ events ∧ s'.journal = past' ++ events

namespace Agree

variable {Same : β → β → Prop} {past past' : Journal} {s s' t t' : System β}

/-- What changes the ledgers alone keeps the agreement, even if it finds different
things to do on the two sides. -/
theorem booked (h : Agree Same past past' s s') (values : t.cpu = s.cpu ∧ t.bus = s.bus ∧
    t.journal = s.journal) (values' : t'.cpu = s'.cpu ∧ t'.bus = s'.bus ∧
    t'.journal = s'.journal) : Agree Same past past' t t' := by
  obtain ⟨cpu, bus, journal⟩ := values
  obtain ⟨cpu', bus', journal'⟩ := values'
  refine ⟨?_, ?_, ?_⟩
  · rw [cpu, cpu', h.cpu]
  · rw [bus, bus']
    exact h.bus
  · rw [journal, journal']
    exact h.journal

/-- A change of the processor that is the same on both sides keeps the agreement. -/
theorem withCpu (h : Agree Same past past' s s') (f : Cpu → Cpu) :
    Agree Same past past' { s with cpu := f s.cpu } { s' with cpu := f s'.cpu } :=
  ⟨congrArg f h.cpu, h.bus, h.journal⟩

/-- Systems that agree have one stack pointer. -/
theorem sp (h : Agree Same past past' s s') : s.sp = s'.sp := by
  simp only [System.sp, h.cpu]

/-- Systems that agree have the same flags. -/
theorem flags (h : Agree Same past past' s s') : s.flags = s'.flags := by
  simp only [System.flags, h.cpu]

/-- Setting a register keeps systems in agreement. -/
theorem setRegister (h : Agree Same past past' s s') (r : Register) (value : UInt8) :
    Agree Same past past' (s.setRegister r value) (s'.setRegister r value) :=
  h.withCpu fun cpu => { cpu with registers := cpu.registers.set r value }

/-- Setting the flags keeps systems in agreement. -/
theorem setFlags (h : Agree Same past past' s s') (flags : Flags) :
    Agree Same past past' (s.setFlags flags) (s'.setFlags flags) :=
  h.withCpu fun cpu => { cpu with registers := { cpu.registers with flags } }

/-- A jump keeps systems in agreement. -/
theorem jumpTo (h : Agree Same past past' s s') (address : UInt16) :
    Agree Same past past' (s.jumpTo address) (s'.jumpTo address) :=
  h.withCpu fun cpu => { cpu with pc := address }

/-- Spending cycles keeps systems in agreement. -/
theorem spend (h : Agree Same past past' s s') (cycles : UInt64) :
    Agree Same past past' (s.spend cycles) (s'.spend cycles) :=
  h.withCpu fun cpu => { cpu with cycles := cpu.cycles + cycles }

/-- Switching interrupts on or off keeps systems in agreement. -/
theorem setInterrupts (h : Agree Same past past' s s') (enabled : Bool) :
    Agree Same past past' (s.setInterrupts enabled) (s'.setInterrupts enabled) :=
  h.withCpu fun cpu => { cpu with interruptsEnabled := enabled }

/-- Further events that are the same on both sides keep the agreement. -/
theorem reported (h : Agree Same past past' s s') (events : Journal)
    (cpu : t.cpu = t'.cpu) (bus : Same t.bus t'.bus)
    (journal : t.journal = s.journal ++ events) (journal' : t'.journal = s'.journal ++ events) :
    Agree Same past past' t t' := by
  obtain ⟨before, now, now'⟩ := h.journal
  refine ⟨cpu, bus, before ++ events, ?_, ?_⟩
  · rw [journal, now, Array.append_assoc]
  · rw [journal', now', Array.append_assoc]

/-- A branch is taken on both sides or on neither. -/
theorem branch (h : Agree Same past past' s s') (condition : Condition) (extra : UInt64)
    {taken : System β → System β}
    (keeps : ∀ {t t' : System β},
      Agree Same past past' t t' → Agree Same past past' (taken t) (taken t')) :
    Agree Same past past' (s.branch condition extra taken) (s'.branch condition extra taken) := by
  simp only [System.branch, h.flags]
  split
  · split
    · exact keeps h
    · exact keeps (h.spend extra)
  · exact h

variable [AddressSpace β]

/-! ## Booking -/

/-- Clearing an origin keeps systems in agreement. -/
theorem clearOrigin (h : Agree Same past past' s s') (place : Place) :
    Agree Same past past' (s.clearOrigin place) (s'.clearOrigin place) :=
  h.booked (by simp) (by simp)

/-- Marking a use keeps systems in agreement. -/
theorem mark (h : Agree Same past past' s s') (place : Place) (usage : Usage) :
    Agree Same past past' (s.mark place usage) (s'.mark place usage) :=
  h.booked (by simp) (by simp)

/-- Marking the use of an origin keeps systems in agreement. -/
theorem markOrigin (h : Agree Same past past' s s') (place : Place) (usage : Usage) :
    Agree Same past past' (s.markOrigin place usage) (s'.markOrigin place usage) :=
  h.booked (by simp) (by simp)

/-- Marking an instruction keeps systems in agreement. -/
theorem markInstruction (h : Agree Same past past' s s') (address : UInt16) (length : UInt8) :
    Agree Same past past' (s.markInstruction address length) (s'.markInstruction address length) :=
  h.booked (by simp) (by simp)

variable [AddressSpace.Congruence Same]

open AddressSpace (Congruence)

/-! ## What is read agrees -/

/-- Systems that agree load the same bytes. -/
theorem load (h : Agree Same past past' s s') (place : Place) : s.load place = s'.load place := by
  cases place with
  | register r => simp only [System.load, h.cpu]
  | _ => exact Congruence.load h.bus _

/-- Systems that agree load the same words. -/
theorem loadWord (h : Agree Same past past' s s') (pair : PlacePair) :
    s.loadWord pair = s'.loadWord pair := by
  simp only [System.loadWord, h.load]

/-- Addresses stand for the same places in systems that agree. -/
theorem resolve (h : Agree Same past past' s s') (address : UInt16) :
    s.resolve address = s'.resolve address :=
  Congruence.resolve h.bus address

/-- The same interrupts are pending in systems that agree. -/
theorem pending (h : Agree Same past past' s s') : s.pending = s'.pending := by
  simp only [System.pending, Congruence.interruptFlag h.bus, Congruence.interruptEnable h.bus]

/-! ## The functions through which bytes are touched -/

/-- A store asks the address space alone what it does and what there is to tell. -/
theorem store (h : Agree Same past past' s s') (place : Place) (value : UInt8) :
    Agree Same past past' (s.store place value) (s'.store place value) := by
  cases place with
  | register r => exact h.setRegister r value
  | _ =>
    rw [store_place s (by simp), store_place s' (by simp), Congruence.announce h.bus]
    exact h.reported _ h.cpu (Congruence.store h.bus _ value) rfl rfl

/-- Writing a byte keeps systems in agreement. -/
theorem write (h : Agree Same past past' s s') (place : Place) (value : UInt8) :
    Agree Same past past' (s.write place value) (s'.write place value) :=
  (h.store place value).clearOrigin place

/-- The value of a move is read from its source, its origin from the ledger. -/
theorem move (h : Agree Same past past' s s') (destination source : Place) :
    Agree Same past past' (s.move destination source) (s'.move destination source) := by
  have stored := h.store destination (s.load source)
  refine stored.booked ⟨rfl, rfl, rfl⟩ ?_
  rw [h.load source]
  exact ⟨rfl, rfl, rfl⟩

/-- Writing a register pair keeps systems in agreement. -/
theorem writePair (h : Agree Same past past' s s') (pair : RegisterPair) (value : UInt16) :
    Agree Same past past' (s.writePair pair value) (s'.writePair pair value) :=
  (h.write _ _).write _ _

/-! ## The stack -/

/-- A push keeps systems in agreement. -/
theorem push (h : Agree Same past past' s s') (source : PlacePair) :
    Agree Same past past' (s.push source) (s'.push source) := by
  simp only [System.push, h.sp, h.resolve]
  exact ((h.move _ _).move _ _).writePair _ _

/-- A pop keeps systems in agreement. -/
theorem pop (h : Agree Same past past' s s') (destination : PlacePair) :
    Agree Same past past' (s.pop destination) (s'.pop destination) := by
  simp only [System.pop, h.sp, h.resolve]
  exact ((h.move _ _).move _ _).writePair _ _

/-- The place of the lower byte is looked up after the upper one has been written. -/
theorem pushPc (h : Agree Same past past' s s') : Agree Same past past' s.pushPc s'.pushPc := by
  have upper := h.write (s'.resolve (s'.sp - 1)) (highByte s'.cpu.pc)
  simp only [System.pushPc, h.sp, h.resolve, h.cpu, upper.resolve]
  exact (upper.write _ _).writePair _ _

/-- A return address that is popped keeps systems in agreement. -/
theorem popPc (h : Agree Same past past' s s') : Agree Same past past' s.popPc s'.popPc := by
  have marked := (h.markOrigin (s'.resolve s'.sp) .pointerLow).markOrigin
    (s'.resolve (s'.sp + 1)) .pointerHigh
  simp only [System.popPc, h.sp, h.resolve, marked.loadWord]
  exact (marked.jumpTo _).writePair _ _

/-! ## Actions -/

/-- Writing a result keeps systems in agreement. -/
theorem writeResult (h : Agree Same past past' s s') (place : Place) (old result : UInt8) :
    Agree Same past past' (s.writeResult place old result) (s'.writeResult place old result) := by
  unfold System.writeResult
  split
  · exact h.write _ _
  · exact h

/-- Counting a byte up or down keeps systems in agreement. -/
theorem stepByte (h : Agree Same past past' s s') (target : Place) (result : UInt8)
    (subtract half : Bool) :
    Agree Same past past' (s.stepByte target result subtract half)
      (s'.stepByte target result subtract half) := by
  have written := h.write target result
  simp only [System.stepByte, written.flags]
  exact written.setFlags _

/-- Counting a word up or down keeps systems in agreement. -/
theorem stepWord (h : Agree Same past past' s s') (target : PlacePair) (step carries : UInt8) :
    Agree Same past past' (s.stepWord target step carries) (s'.stepWord target step carries) := by
  have marked := (h.markOrigin target.low .wordLow).markOrigin target.high .wordHigh
  have lower := fun value => marked.write target.low value
  simp only [System.stepWord, marked.load, (lower _).load]
  split
  · exact (lower _).write _ _
  · exact lower _

/-- Writing a word keeps systems in agreement. -/
theorem writeWord (h : Agree Same past past' s s') (target : PlacePair) (value : UInt16) :
    Agree Same past past' (s.writeWord target value) (s'.writeWord target value) :=
  (h.write _ _).write _ _

/-- A sum or difference keeps systems in agreement. -/
theorem sumByte (h : Agree Same past past' s s') (kind : SumKind) (target operand : Place) :
    Agree Same past past' (s.sumByte kind target operand) (s'.sumByte kind target operand) := by
  simp only [System.sumByte, h.load, h.flags]
  exact (h.setFlags _).writeResult _ _ _

/-- A logical operation keeps systems in agreement. -/
theorem logicByte (h : Agree Same past past' s s') (kind : LogicKind) (target operand : Place) :
    Agree Same past past' (s.logicByte kind target operand) (s'.logicByte kind target operand) := by
  simp only [System.logicByte, h.load]
  exact (h.setFlags _).writeResult _ _ _

/-- A comparison keeps systems in agreement. -/
theorem compareByte (h : Agree Same past past' s s') (target operand : Place) :
    Agree Same past past' (s.compareByte target operand) (s'.compareByte target operand) := by
  simp only [System.compareByte, h.load]
  exact h.setFlags _

/-- A sum of words keeps systems in agreement. -/
theorem addWord (h : Agree Same past past' s s') (target operand : PlacePair) :
    Agree Same past past' (s.addWord target operand) (s'.addWord target operand) := by
  have marked := (((h.markOrigin operand.low .wordLow).markOrigin operand.high
    .wordHigh).markOrigin target.low .wordLow).markOrigin target.high .wordHigh
  simp only [System.addWord, marked.loadWord, marked.flags]
  exact (marked.setFlags _).writeWord _ _

/-- An offset from the stack pointer keeps systems in agreement. -/
theorem writeStackOffset (h : Agree Same past past' s s') (target : PlacePair) (offset : Place) :
    Agree Same past past' (s.writeStackOffset target offset)
      (s'.writeStackOffset target offset) := by
  simp only [System.writeStackOffset, h.sp, h.load]
  exact (h.setFlags _).writeWord _ _

/-- A rotation of the accumulator keeps systems in agreement. -/
theorem rotateByte (h : Agree Same past past' s s') (kind : RotateKind) (target : Place) :
    Agree Same past past' (s.rotateByte kind target) (s'.rotateByte kind target) := by
  simp only [System.rotateByte, h.load, h.flags]
  exact (h.write _ _).setFlags _

/-- The decimal adjustment keeps systems in agreement. -/
theorem adjustByte (h : Agree Same past past' s s') (target : Place) :
    Agree Same past past' (s.adjustByte target) (s'.adjustByte target) := by
  have written := fun value => h.write target value
  simp only [System.adjustByte, h.load, h.flags, (written _).flags]
  exact (written _).setFlags _

/-- The complement keeps systems in agreement. -/
theorem complementByte (h : Agree Same past past' s s') (target : Place) :
    Agree Same past past' (s.complementByte target) (s'.complementByte target) := by
  have written := fun value => h.write target value
  simp only [System.complementByte, h.load, (written _).flags]
  exact (written _).setFlags _

/-- A shift keeps systems in agreement. -/
theorem shiftByte (h : Agree Same past past' s s') (kind : ShiftKind) (target : Place) :
    Agree Same past past' (s.shiftByte kind target) (s'.shiftByte kind target) := by
  simp only [System.shiftByte, h.load, h.flags]
  exact (h.write _ _).setFlags _

/-- A bit test keeps systems in agreement. -/
theorem testBit (h : Agree Same past past' s s') (index : Fin 8) (target : Place) :
    Agree Same past past' (s.testBit index target) (s'.testBit index target) := by
  simp only [System.testBit, h.load, h.flags]
  exact h.setFlags _

/-- A relative jump keeps systems in agreement. -/
theorem jumpRelative (h : Agree Same past past' s s') (condition : Condition) (offset : Place) :
    Agree Same past past' (s.jumpRelative condition offset) (s'.jumpRelative condition offset) := by
  refine h.branch condition 4 fun {t t'} taken => ?_
  simp only [taken.cpu, taken.load]
  exact taken.jumpTo _

/-- A conditional jump keeps systems in agreement. -/
theorem jump (h : Agree Same past past' s s') (condition : Condition) (target : PlacePair) :
    Agree Same past past' (s.jump condition target) (s'.jump condition target) := by
  refine h.branch condition 4 fun {t t'} taken => ?_
  have marked := (taken.markOrigin target.low .pointerLow).markOrigin target.high .pointerHigh
  by_cases always : condition = .always
  · simp only [if_pos always, marked.loadWord]
    exact marked.jumpTo _
  · simp only [if_neg always, taken.loadWord]
    exact taken.jumpTo _

/-- A call keeps systems in agreement. -/
theorem call (h : Agree Same past past' s s') (condition : Condition) (target : PlacePair) :
    Agree Same past past' (s.call condition target) (s'.call condition target) := by
  refine h.branch condition 12 fun {t t'} taken => ?_
  simp only [taken.pushPc.loadWord]
  exact taken.pushPc.jumpTo _

/-- A return keeps systems in agreement. -/
theorem ret (h : Agree Same past past' s s') (condition : Condition) :
    Agree Same past past' (s.ret condition) (s'.ret condition) :=
  h.branch condition 12 popPc

/-- A change of speed keeps systems in agreement. -/
theorem switchSpeed (h : Agree Same past past' s s') :
    Agree Same past past' s.switchSpeed s'.switchSpeed := by
  simp only [System.switchSpeed, h.cpu, Congruence.speedSwitchArmed h.bus]
  split
  · exact h.reported #[.speedSwitch _ _] rfl (Congruence.setDoubleSpeed h.bus _) rfl rfl
  · exact h

/-- The case of an action is the statement about the function that carries it out. -/
theorem act (h : Agree Same past past' s s') (action : Action) :
    Agree Same past past' (s.act action) (s'.act action) := by
  cases action with
  | nop => exact h
  | illegal => exact h
  | stop => exact h.switchSpeed
  | halt => exact h.withCpu fun cpu => { cpu with halted := true }
  | disableInterrupts => exact h.setInterrupts false
  | enableInterrupts => exact h.setInterrupts true
  | load8 destination source => exact (h.mark source .data).move destination source
  | load16 destination source => exact (h.move _ _).move _ _
  | loadStackOffset destination offset => exact h.writeStackOffset destination offset
  | push source => exact h.push source
  | pop destination => exact h.pop destination
  | inc8 target =>
    simp only [System.act, h.load]
    exact h.stepByte _ _ _ _
  | dec8 target =>
    simp only [System.act, h.load]
    exact h.stepByte _ _ _ _
  | inc16 target => exact h.stepWord _ _ _
  | dec16 target => exact h.stepWord _ _ _
  | sum8 kind target operand => exact h.sumByte kind target operand
  | logic8 kind target operand => exact h.logicByte kind target operand
  | compare8 target operand => exact h.compareByte target operand
  | add16 target operand => exact h.addWord target operand
  | addStackOffset target offset => exact h.writeStackOffset target offset
  | rotateAccumulator kind target => exact h.rotateByte kind target
  | decimalAdjust target => exact h.adjustByte target
  | complement target => exact h.complementByte target
  | setCarry =>
    simp only [System.act, h.flags]
    exact h.setFlags _
  | invertCarry =>
    simp only [System.act, h.flags]
    exact h.setFlags _
  | jumpRelative condition offset => exact h.jumpRelative condition offset
  | jump condition target => exact h.jump condition target
  | call condition target => exact h.call condition target
  | ret condition => exact h.ret condition
  | returnFromInterrupt => exact h.popPc.setInterrupts true
  | restart vector => exact h.pushPc.jumpTo _
  | shift kind target => exact h.shiftByte kind target
  | testBit index target => exact h.testBit index target
  | clearBit index target =>
    simp only [System.act, h.load]
    exact h.write _ _
  | setBit index target =>
    simp only [System.act, h.load]
    exact h.write _ _

/-! ## Decoding and executing -/

/-- The operation is a function of the registers and the address space, and the
remarks are booked in the ledger. -/
theorem decode (h : Agree Same past past' s s') (address : UInt16) :
    (s.decode address).2 = (s'.decode address).2 ∧
      Agree Same past past' (s.decode address).1 (s'.decode address).1 := by
  refine ⟨?_, h.booked (by simp) (by simp)⟩
  simp only [decode_operation, h.cpu, Congruence.decode h.bus]

/-- Moving on to the next instruction keeps systems in agreement. -/
theorem advance (h : Agree Same past past' s s') (operation : Operation) :
    Agree Same past past' (s.advance operation) (s'.advance operation) := by
  refine h.reported #[] ?_ ?_ rfl rfl
  · simp only [System.advance, h.cpu]
  · simp only [System.advance, h.cpu]
    exact Congruence.sync h.bus _

/-- The step of HL after an access keeps systems in agreement. -/
theorem stepHl (h : Agree Same past past' s s') (step : Int8) :
    Agree Same past past' (s.stepHl step) (s'.stepHl step) := by
  simp only [System.stepHl, h.cpu]
  split
  · exact h
  · exact h.writePair _ _

/-- Every operation keeps systems in agreement. -/
theorem execute (h : Agree Same past past' s s') (operation : Operation) :
    Agree Same past past' (s.execute operation) (s'.execute operation) := by
  simp only [System.execute, h.cpu]
  exact (((h.markInstruction _ _).advance _).act _).stepHl _

/-! ## Interrupts -/

/-- Entering an interrupt handler keeps systems in agreement. -/
theorem enterHandler (h : Agree Same past past' s s') (vector : UInt16) :
    Agree Same past past' (s.enterHandler vector) (s'.enterHandler vector) :=
  (((h.spend 20).setInterrupts false).pushPc).jumpTo vector

/-- Dispatching an interrupt keeps systems in agreement. -/
theorem dispatch (h : Agree Same past past' s s') (source : Interrupt) :
    Agree Same past past' (s.dispatch source) (s'.dispatch source) := by
  simp only [System.dispatch, h.cpu, Congruence.interruptFlag h.bus,
    Congruence.interruptEnable h.bus]
  refine enterHandler ?_ _
  exact h.reported #[.interrupt ..] rfl (Congruence.setInterruptFlag h.bus _) rfl rfl

/-- The interrupt check finds the same interrupt, and keeps systems in agreement. -/
theorem serviceInterrupts (h : Agree Same past past' s s') :
    s.serviceInterrupts.2 = s'.serviceInterrupts.2 ∧
      Agree Same past past' s.serviceInterrupts.1 s'.serviceInterrupts.1 := by
  have awake := h.withCpu fun cpu => { cpu with halted := false }
  simp only [h.cpu] at awake
  simp only [System.serviceInterrupts, h.pending, h.cpu]
  split
  · exact ⟨rfl, h⟩
  · split
    · split
      · exact ⟨rfl, awake.dispatch _⟩
      · exact ⟨rfl, awake⟩
    · exact ⟨rfl, awake⟩

end Agree

end Handheld.System
