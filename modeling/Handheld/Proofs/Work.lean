import Handheld.Proofs.Progress

/-!
# What an instruction does to bytes

`Proceeds` tells what a processor at work can do to its surroundings. This module tells what
it does to the bytes, and in which order. A `Deed` is one thing done to a byte: a byte that
comes from nowhere in particular is written to a place, the byte at one place is moved to
another, or the flags are set. `Works s cycles deeds s'` says that `s'` comes from `s` by
these deeds, in so many cycles. Between them the processor may compute, mark bytes, and let
time pass, and none of this changes a byte or an origin.

* `deeds` lists what each action does, and `deedsOf` what a whole operation does.
* Every function of a processor at work does the deeds that are listed for it
  (`Works.act`, `Works.execute`, `Works.enterHandler`).
* What works proceeds, so the cycles and the surroundings are told for the same functions.
-/

set_option autoImplicit false

namespace Handheld

/-- One thing done to a byte. -/
inductive Deed where
  /-- A byte that comes from nowhere in particular is written. -/
  | write (place : Place)
  /-- A byte is moved, and the move is booked. -/
  | move (destination source : Place)
  /-- The flags are set, and nothing is booked. -/
  | flags
  deriving DecidableEq

/-- The place that a deed reaches. -/
def Deed.place : Deed → Place
  | .write place => place
  | .move destination _ => destination
  | .flags => .register .f

/-- Whether a deed is a move. -/
def Deed.isMove : Deed → Bool
  | .move _ _ => true
  | .write _ | .flags => false

namespace System

variable {β : Type} [AddressSpace β]

/-- What can become of an address space while nothing is stored there. -/
inductive Attended : β → β → Prop where
  | untouched (bus : β) : Attended bus bus
  | sync (bus : β) (cycles : UInt64) : Attended bus (AddressSpace.sync bus cycles)
  | switched (bus : β) (double : Bool) : Attended bus (AddressSpace.setDoubleSpeed bus double)

/-- What a processor at work can have come to, in how many cycles and by which deeds. -/
inductive Works : System β → Nat → List Deed → System β → Prop where
  | aside {s s' : System β} {n : Nat} (proceeds : Proceeds s n s')
    (bus : Attended s.bus s'.bus) (registers : s'.cpu.registers = s.cpu.registers)
    (ledger : s'.ledger = s.ledger) : Works s n [] s'
  | mark (s : System β) (place : Place) (usage : Usage) : Works s 0 [] (s.mark place usage)
  | flags (s : System β) (flags : Flags) : Works s 0 [.flags] (s.setFlags flags)
  | write (s : System β) (place : Place) (value : UInt8) :
    Works s 0 [.write place] (s.write place value)
  | move (s : System β) (destination source : Place) :
    Works s 0 [.move destination source] (s.move destination source)
  | trans {s t u : System β} {m n : Nat} {first second : List Deed} (before : Works s m first t)
    (after : Works t n second u) : Works s (m + n) (first ++ second) u

/-! ## The deeds of an operation -/

/-- A new word is written to a pair of registers. -/
def pairDeeds (pair : RegisterPair) : List Deed :=
  [.write (.register pair.high), .write (.register pair.low)]

/-- The program counter is put on the stack. The lower place is looked up after the upper byte
has been written. -/
def pushPcDeeds (s : System β) : List Deed :=
  let upper := s.write (s.resolve (s.sp - 1)) (highByte s.cpu.pc)
  .write (s.resolve (s.sp - 1)) :: .write (upper.resolve (s.sp - 2)) :: pairDeeds .sp

/-- A word is stepped: its upper byte is written only if the lower one wraps. -/
def stepWordDeeds (s : System β) (target : PlacePair) (step carries : UInt8) : List Deed :=
  if s.load target.low + step == carries then [.write target.low, .write target.high]
  else [.write target.low]

/-- A result of the arithmetic unit is written only if it differs from what is there. -/
def resultDeeds (target : Place) (old result : UInt8) : List Deed :=
  if result ≠ old then [.flags, .write target] else [.flags]

/-- What an action does to bytes. -/
def deeds (s : System β) : Action → List Deed
  | .load8 destination source => [.move destination source]
  | .load16 destination source =>
    [.move destination.high source.high, .move destination.low source.low]
  | .push source =>
    .move (s.resolve (s.sp - 1)) source.high :: .move (s.resolve (s.sp - 2)) source.low ::
      pairDeeds .sp
  | .pop destination =>
    .move destination.low (s.resolve s.sp) :: .move destination.high (s.resolve (s.sp + 1)) ::
      pairDeeds .sp
  | .loadStackOffset target _ | .addStackOffset target _ | .add16 target _ =>
    [.flags, .write target.low, .write target.high]
  | .inc8 target | .dec8 target | .rotateAccumulator _ target | .decimalAdjust target
  | .complement target | .shift _ target => [.write target, .flags]
  | .clearBit _ target | .setBit _ target => [.write target]
  | .inc16 target => s.stepWordDeeds target 1 0x00
  | .dec16 target => s.stepWordDeeds target 0xFF 0xFF
  | .sum8 kind target operand =>
    resultDeeds target (s.load target)
      (kind.apply (s.load target) (s.load operand) s.flags.c).value
  | .logic8 kind target operand =>
    resultDeeds target (s.load target) (kind.apply (s.load target) (s.load operand)).value
  | .compare8 _ _ | .testBit _ _ | .setCarry | .invertCarry => [.flags]
  | .call condition _ => if condition.holds s.flags then s.pushPcDeeds else []
  | .ret condition => if condition.holds s.flags then pairDeeds .sp else []
  | .returnFromInterrupt => pairDeeds .sp
  | .restart _ => s.pushPcDeeds
  | .nop | .stop | .halt | .disableInterrupts | .enableInterrupts | .jumpRelative _ _ | .jump _ _
  | .illegal => []

/-- What an operation does to bytes. -/
def deedsOf (s : System β) (operation : Operation) : List Deed :=
  (s.ready operation).deeds operation.action ++
    if operation.hlStep = 0 then [] else pairDeeds .hl

/-! ## What is left as it is between deeds -/

/-- Marking the use of an origin changes no byte. -/
theorem load_markOrigin (s : System β) (marked : Place) (usage : Usage) (place : Place) :
    (s.markOrigin marked usage).load place = s.load place := by
  cases place <;> simp only [load, markOrigin_cpu, markOrigin_bus]

/-- Where the program counter is pushed depends on the registers, the program counter and the
address space. -/
theorem pushPcDeeds_congr {s t : System β} (registers : t.cpu.registers = s.cpu.registers)
    (pc : t.cpu.pc = s.cpu.pc) (bus : t.bus = s.bus) : t.pushPcDeeds = s.pushPcDeeds := by
  have sp : t.sp = s.sp := congrArg Registers.sp registers
  have stored : ∀ place value, (t.store place value).bus = (s.store place value).bus := by
    intro place value
    cases place with
    | register r => exact bus
    | _ => simp only [store, bus]
  simp only [pushPcDeeds, resolve, write_bus, sp, pc, bus, stored]

namespace Works

/-- Work proceeds by its cycles. -/
theorem proceeds {s s' : System β} {n : Nat} {deeds : List Deed} (works : Works s n deeds s') :
    Proceeds s n s' := by
  induction works with
  | aside proceeds => exact proceeds
  | mark s place usage => exact (Proceeds.refl s).mark place usage
  | flags s flags => exact .think rfl rfl
  | write s place value => exact (Proceeds.refl s).write place value
  | move s destination source => exact (Proceeds.refl s).move destination source
  | trans _ _ first second => exact first.trans second

variable (s : System β)

/-- No work takes no cycles and no deeds. -/
theorem refl : Works s 0 [] s := .aside (.refl s) (.untouched _) rfl rfl

/-- The processor computes, and neither its registers nor anything outside change. -/
theorem think {s s' : System β} (pace : s'.cpu.pace = s.cpu.pace) (bus : s'.bus = s.bus)
    (registers : s'.cpu.registers = s.cpu.registers) (ledger : s'.ledger = s.ledger) :
    Works s 0 [] s' := by
  have alone : Attended s.bus s'.bus := by
    rw [bus]
    exact .untouched _
  exact .aside (.think pace bus) alone registers ledger

/-- Spending cycles works by no deeds. -/
theorem spend (cycles : UInt64) : Works s cycles.toNat [] (s.spend cycles) :=
  .aside (.spend cycles rfl rfl) (.untouched _) rfl rfl

/-- A jump works by no deeds. -/
theorem jumpTo (address : UInt16) : Works s 0 [] (s.jumpTo address) := .think rfl rfl rfl rfl

/-- Switching interrupts on or off works by no deeds. -/
theorem setInterrupts (enabled : Bool) : Works s 0 [] (s.setInterrupts enabled) :=
  .think rfl rfl rfl rfl

/-- Marking the use of an origin works by no deeds. -/
theorem markOrigin (place : Place) (usage : Usage) : Works s 0 [] (s.markOrigin place usage) := by
  unfold System.markOrigin
  split
  · exact .mark s _ usage
  · exact refl s

/-- Writing a register pair works by writing both its halves. -/
theorem writePair (pair : RegisterPair) (value : UInt16) :
    Works s 0 (pairDeeds pair) (s.writePair pair value) :=
  (Works.write s _ _).trans (.write _ _ _)

/-! ## The stack -/

/-- A push works by its deeds. -/
theorem push (source : PlacePair) : Works s 0 (s.deeds (.push source)) (s.push source) :=
  ((Works.move s _ _).trans (.move _ _ _)).trans (writePair _ _ _)

/-- A pop works by its deeds. -/
theorem pop (destination : PlacePair) :
    Works s 0 (s.deeds (.pop destination)) (s.pop destination) :=
  ((Works.move s _ _).trans (.move _ _ _)).trans (writePair _ _ _)

/-- Pushing the program counter works by its deeds. -/
theorem pushPc : Works s 0 s.pushPcDeeds s.pushPc :=
  ((Works.write s _ _).trans (.write _ _ _)).trans (writePair _ _ _)

/-- Popping a return address works by writing the stack pointer. -/
theorem popPc : Works s 0 (pairDeeds .sp) s.popPc :=
  (((markOrigin s _ _).trans (markOrigin _ _ _)).trans (jumpTo _ _)).trans (writePair _ _ _)

/-! ## The actions -/

/-- A byte that is written with its flags works by a write and the flags. -/
theorem writeFlags (target : Place) (value : UInt8) (flags : Flags) :
    Works s 0 [.write target, .flags] ((s.write target value).setFlags flags) :=
  (Works.write s _ _).trans (.flags _ _)

/-- A result that is written after its flags works by the deeds of a result. -/
theorem flagsResult (flags : Flags) (target : Place) (old result : UInt8) :
    Works s 0 (resultDeeds target old result)
      ((s.setFlags flags).writeResult target old result) := by
  unfold System.writeResult resultDeeds
  split
  · exact (Works.flags s flags).trans (.write _ _ _)
  · exact .flags s flags

/-- A word that is written after its flags works by the flags and both its bytes. -/
theorem flagsWord (flags : Flags) (target : PlacePair) (value : UInt16) :
    Works s 0 [.flags, .write target.low, .write target.high]
      ((s.setFlags flags).writeWord target value) :=
  ((Works.flags s flags).trans (.write _ _ _)).trans (.write _ _ _)

/-- Counting a word up or down works by its deeds. -/
theorem stepWord (target : PlacePair) (step carries : UInt8) :
    Works s 0 (s.stepWordDeeds target step carries) (s.stepWord target step carries) := by
  have marked := (markOrigin s target.low .wordLow).trans (markOrigin _ target.high .wordHigh)
  simp only [System.stepWord, stepWordDeeds, load_markOrigin]
  split
  · exact (marked.trans (.write _ _ _)).trans (.write _ _ _)
  · exact marked.trans (.write _ _ _)

/-- A sum of words works by its deeds. -/
theorem addWord (target operand : PlacePair) :
    Works s 0 (s.deeds (.add16 target operand)) (s.addWord target operand) := by
  have marked := (markOrigin s operand.low .wordLow).trans (markOrigin _ operand.high .wordHigh)
  have both := (marked.trans (markOrigin _ target.low .wordLow)).trans
    (markOrigin _ target.high .wordHigh)
  exact both.trans (flagsWord _ _ _ _)

/-- A change of speed works by no deeds. -/
theorem switchSpeed : Works s 0 [] s.switchSpeed := by
  unfold System.switchSpeed
  split
  · exact .aside (.switch _ rfl rfl rfl) (.switched _ _) rfl rfl
  · exact refl s

/-- A branch that is taken may be paid for, and goes on with what is paid for. -/
theorem branch (condition : Condition) (extra : UInt64) {deeds : System β → List Deed}
    {taken : System β → System β} (paid : deeds (s.spend extra) = deeds s)
    (goesOn : ∀ t : System β, Works t 0 (deeds t) (taken t)) :
    ∃ more, (more = 0 ∨ more = condition.extra extra.toNat) ∧
      Works s more (if condition.holds s.flags then deeds s else [])
        (s.branch condition extra taken) := by
  unfold System.branch
  split
  · split
    · exact ⟨0, .inl rfl, goesOn s⟩
    · rename_i sometimes
      have later := (spend s extra).trans (goesOn (s.spend extra))
      rw [paid] at later
      exact ⟨extra.toNat, .inr (if_neg sometimes).symm, later⟩
  · exact ⟨0, .inl rfl, refl s⟩

/-- A relative jump works by no deeds, and costs extra if it is taken. -/
theorem jumpRelative (condition : Condition) (offset : Place) :
    ∃ more, (more = 0 ∨ more = condition.extra 4) ∧
      Works s more [] (s.jumpRelative condition offset) := by
  have none : ∀ t : System β, Works t 0 [] (t.jumpTo (t.cpu.pc + signExtend (t.load offset))) :=
    fun t => jumpTo t _
  have jumped := branch s condition 4 rfl none
  rw [ite_self] at jumped
  exact jumped

/-- A jump works by no deeds, and costs extra if it is taken. -/
theorem jump (condition : Condition) (target : PlacePair) :
    ∃ more, (more = 0 ∨ more = condition.extra 4) ∧ Works s more [] (s.jump condition target) := by
  have jumps : ∀ t : System β, Works t 0 []
      ((if condition = .always then
          (t.markOrigin target.low .pointerLow).markOrigin target.high .pointerHigh
        else t).jumpTo
        ((if condition = .always then
          (t.markOrigin target.low .pointerLow).markOrigin target.high .pointerHigh
        else t).loadWord target)) := by
    intro t
    split
    · exact ((markOrigin t _ _).trans (markOrigin _ _ _)).trans (jumpTo _ _)
    · exact jumpTo t _
  have jumped := branch s condition 4 rfl jumps
  rw [ite_self] at jumped
  exact jumped

/-- A call works by the deeds of its push, and costs extra if it is taken. -/
theorem call (condition : Condition) (target : PlacePair) :
    ∃ more, (more = 0 ∨ more = condition.extra 12) ∧
      Works s more (s.deeds (.call condition target)) (s.call condition target) := by
  have paid : (s.spend 12).pushPcDeeds = s.pushPcDeeds := pushPcDeeds_congr rfl rfl rfl
  exact branch s condition 12 paid fun t => (pushPc t).trans (jumpTo _ _)

/-- A return works by its deeds, and costs extra if it is taken. -/
theorem ret (condition : Condition) :
    ∃ more, (more = 0 ∨ more = condition.extra 12) ∧
      Works s more (s.deeds (.ret condition)) (s.ret condition) := by
  have pops : ∀ t : System β, Works t 0 (pairDeeds .sp) t.popPc := popPc
  exact branch s condition 12 rfl pops

/-- Beyond the cost of its operation an action takes what a branch adds when it is taken, or
nothing, and it does its deeds. -/
theorem act (action : Action) :
    ∃ more, (more = 0 ∨ more = action.extra) ∧ Works s more (s.deeds action) (s.act action) := by
  have free : ∀ {u : System β}, Works s 0 (s.deeds action) u →
      ∃ more, (more = 0 ∨ more = action.extra) ∧ Works s more (s.deeds action) u := by
    intro u arrived
    exact ⟨0, .inl rfl, arrived⟩
  cases action with
  | nop => exact free (refl s)
  | illegal => exact free (refl s)
  | stop => exact free (switchSpeed s)
  | halt => exact free (.think rfl rfl rfl rfl)
  | disableInterrupts => exact free (setInterrupts s false)
  | enableInterrupts => exact free (setInterrupts s true)
  | load8 destination source => exact free ((Works.mark s source .data).trans (.move _ _ _))
  | load16 destination source => exact free ((Works.move s _ _).trans (.move _ _ _))
  | loadStackOffset destination offset => exact free (flagsWord s _ _ _)
  | push source => exact free (push s source)
  | pop destination => exact free (pop s destination)
  | inc8 target => exact free (writeFlags s target _ _)
  | dec8 target => exact free (writeFlags s target _ _)
  | inc16 target => exact free (stepWord s target _ _)
  | dec16 target => exact free (stepWord s target _ _)
  | sum8 kind target operand => exact free (flagsResult s _ _ _ _)
  | logic8 kind target operand => exact free (flagsResult s _ _ _ _)
  | compare8 target operand => exact free (.flags s _)
  | add16 target operand => exact free (addWord s target operand)
  | addStackOffset target offset => exact free (flagsWord s _ _ _)
  | rotateAccumulator kind target => exact free (writeFlags s target _ _)
  | decimalAdjust target => exact free (writeFlags s target _ _)
  | complement target => exact free (writeFlags s target _ _)
  | setCarry => exact free (.flags s _)
  | invertCarry => exact free (.flags s _)
  | jumpRelative condition offset => exact jumpRelative s condition offset
  | jump condition target => exact jump s condition target
  | call condition target => exact call s condition target
  | ret condition => exact ret s condition
  | returnFromInterrupt => exact free ((popPc s).trans (setInterrupts _ true))
  | restart vector => exact free ((pushPc s).trans (jumpTo _ _))
  | shift kind target => exact free (writeFlags s target _ _)
  | testBit index target => exact free (.flags s _)
  | clearBit index target => exact free (.write s _ _)
  | setBit index target => exact free (.write s _ _)

/-! ## Decoding, execution and the call of a handler -/

/-- Decoding works by no deeds. -/
theorem decode (address : UInt16) : Works s 0 [] (s.decode address).1 := by
  have marks : ∀ (marks : List Mark) (t : System β), Works t 0 [] (marks.foldl applyMark t) := by
    intro marks
    induction marks with
    | nil => exact refl
    | cons mark marks ih =>
      intro t
      cases mark with
      | place target usage => exact (Works.mark t target usage).trans (ih _)
      | originOf target usage => exact (markOrigin t target usage).trans (ih _)
  exact marks _ s

/-- Marking the operands of an instruction works by no deeds. -/
theorem markOperands (address : UInt16) (count : Nat) :
    Works s 0 [] (s.markOperands address count) := by
  induction count with
  | zero => exact refl s
  | succ count ih => exact ih.trans (.mark _ _ _)

/-- Marking an instruction works by no deeds. -/
theorem markInstruction (address : UInt16) (length : UInt8) :
    Works s 0 [] (s.markInstruction address length) :=
  (Works.mark s _ _).trans (markOperands _ _ _)

/-- Moving on to the next instruction works by no deeds, in the cycles of the operation. -/
theorem advance (operation : Operation) :
    Works s operation.cycles.toNat [] (s.advance operation) := by
  have ticked : Works s operation.cycles.toUInt64.toNat [] (s.advance operation) :=
    .aside (.tick operation.cycles.toUInt64 rfl rfl) (.sync _ _) rfl rfl
  rwa [UInt32.toNat_toUInt64] at ticked

/-- The step of HL works by writing HL, if there is a step. -/
theorem stepHl (step : Int8) :
    Works s 0 (if step = 0 then [] else pairDeeds .hl) (s.stepHl step) := by
  unfold System.stepHl
  split
  · exact refl s
  · exact writePair s _ _

/-- Once its bytes are marked an operation does its deeds. -/
theorem executeMarked (operation : Operation) :
    ∃ more, (more = 0 ∨ more = operation.action.extra) ∧
      Works (s.markInstruction s.cpu.pc operation.length) (operation.cycles.toNat + more)
        (s.deedsOf operation) (s.execute operation) := by
  obtain ⟨more, taken, acted⟩ := act (s.ready operation) operation.action
  exact ⟨more, taken, ((advance _ operation).trans acted).trans (stepHl _ operation.hlStep)⟩

/-- Every operation works by its deeds, in its cycles and what it costs extra. -/
theorem execute (operation : Operation) :
    ∃ more, (more = 0 ∨ more = operation.action.extra) ∧
      Works s (operation.cycles.toNat + more) (s.deedsOf operation) (s.execute operation) := by
  obtain ⟨more, taken, works⟩ := executeMarked s operation
  have executed := (markInstruction s s.cpu.pc operation.length).trans works
  rw [Nat.zero_add] at executed
  exact ⟨more, taken, executed⟩

/-- Entering a handler works by pushing the program counter, in twenty cycles. -/
theorem enterHandler (vector : UInt16) : Works s 20 s.pushPcDeeds (s.enterHandler vector) := by
  let alone := (s.spend 20).setInterrupts false
  have same : alone.pushPcDeeds = s.pushPcDeeds := pushPcDeeds_congr rfl rfl rfl
  have entered := (((spend s 20).trans (setInterrupts _ false)).trans (pushPc alone)).trans
    (jumpTo _ vector)
  rw [same, List.append_nil] at entered
  exact entered

end Works

/-! ## The surroundings -/

namespace Proceeds

variable {s t : System β} {n : Nat}

/-- Decoding takes no cycles. -/
theorem decode (h : Proceeds s n t) (address : UInt16) : Proceeds s n (t.decode address).1 :=
  h.next (Works.decode t address).proceeds

/-- An operation takes its cycles and what it costs extra. -/
theorem execute (h : Proceeds s n t) (operation : Operation) :
    ∃ more, (more = 0 ∨ more = operation.action.extra) ∧
      Proceeds s (n + operation.cycles.toNat + more) (t.execute operation) := by
  obtain ⟨more, taken, executed⟩ := Works.execute t operation
  refine ⟨more, taken, ?_⟩
  rw [Nat.add_assoc]
  exact h.trans executed.proceeds

/-- Entering a handler takes twenty cycles. -/
theorem enterHandler (h : Proceeds s n t) (vector : UInt16) :
    Proceeds s (n + 20) (t.enterHandler vector) :=
  h.trans (Works.enterHandler t vector).proceeds

/-- Dispatching an interrupt takes twenty cycles. -/
theorem dispatch (h : Proceeds s n t) (source : Interrupt) :
    Proceeds s (n + 20) (t.dispatch source) := by
  have takenBack : Proceeds s n (t.withoutRequest source) := h.next (.takeBack source rfl rfl)
  exact takenBack.enterHandler source.vector

/-- An interrupt check takes twenty cycles if it calls a handler, and none otherwise. -/
theorem serviceInterrupts (h : Proceeds s n t) :
    ∃ more, (more = 0 ∨ more = 20) ∧ Proceeds s (n + more) t.serviceInterrupts.1 := by
  have awake : Proceeds s n t.wake := h.next (.think rfl rfl)
  rw [serviceInterrupts_eq]
  split
  · exact ⟨0, .inl rfl, h⟩
  · split
    · split
      next source _ => exact ⟨20, .inr rfl, awake.dispatch source⟩
      next => exact ⟨0, .inl rfl, awake⟩
    · exact ⟨0, .inl rfl, awake⟩

end Proceeds

end System

end Handheld
