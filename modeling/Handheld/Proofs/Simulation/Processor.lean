import Handheld.Proofs.Simulation.Decode
import Handheld.Proofs.System

/-!
# The processor on places kept in two address spaces

One address space simulates another on some of its places if, on these, it answers for the
images of the places what the other answers for the places themselves, and if a store to one of
them keeps it so. Of all other places nothing is asked.

A processor that stays on the kept places cannot tell which of the two it works in. This is
shown from the bottom up, as for the agreement of two ledgers: for reading, for the functions
through which an instruction touches bytes, for the stack, the actions, and the execution of an
operation. Only now the operation of the one processor is the image of the other's, and each
function needs to know that the places it touches are kept.

* A turn decodes the instruction at the program counter and executes it (`turn`).
* A turn is confined if its instruction, its operands and the part of the stack it uses lie on
  kept places (`Confined`). Such a turn does the same on both sides (`Simulates.turn`), and so
  does a run of them (`Simulates.turns`).
-/

set_option autoImplicit false

namespace Handheld

/-- What relates the states of two address spaces of which the second simulates the first
on the places kept. In the first an address always stands for the same place. -/
class AddressSpace.Simulation {β β' : Type} [AddressSpace β] [AddressSpace β']
    (Same : β → β' → Prop) (image : outParam (Place → Place))
    (Kept : outParam (Place → Prop)) : Prop where
  register : ∀ r, image (.register r) = .register r
  outside : ∀ {place}, Kept place → (∀ r, place ≠ .register r) → ∀ r, image place ≠ .register r
  fixed : ∀ (bus other : β) (address : UInt16),
    AddressSpace.resolve bus address = AddressSpace.resolve other address
  resolve : ∀ {bus : β} {bus' : β'}, Same bus bus' → ∀ address,
    AddressSpace.resolve bus' address = image (AddressSpace.resolve bus address)
  load : ∀ {bus : β} {bus' : β'}, Same bus bus' → ∀ {place}, Kept place →
    AddressSpace.load bus' (image place) = AddressSpace.load bus place
  store : ∀ {bus : β} {bus' : β'}, Same bus bus' → ∀ {place}, Kept place → ∀ value,
    Same (AddressSpace.store bus place value) (AddressSpace.store bus' (image place) value)
  sync : ∀ {bus : β} {bus' : β'}, Same bus bus' → ∀ cycles,
    Same (AddressSpace.sync bus cycles) (AddressSpace.sync bus' cycles)

/-- All operands that an action has are such. -/
structure Operands.All (Kept : Place → Prop) (operands : Operands) : Prop where
  destinationHigh : ∀ place, operands.destinationHigh = some place → Kept place
  destinationLow : ∀ place, operands.destinationLow = some place → Kept place
  sourceHigh : ∀ place, operands.sourceHigh = some place → Kept place
  sourceLow : ∀ place, operands.sourceLow = some place → Kept place

namespace System

variable {β β' : Type}

/-- The addresses of the stack that an action uses. -/
def stackAddresses (s : System β) : Action → List UInt16
  | .push _ | .restart _ => [s.sp - 1, s.sp - 2]
  | .pop _ | .returnFromInterrupt => [s.sp, s.sp + 1]
  | .call condition _ => if condition.holds s.flags then [s.sp - 1, s.sp - 2] else []
  | .ret condition => if condition.holds s.flags then [s.sp, s.sp + 1] else []
  | _ => []

/-- A call that is taken uses the two addresses below the stack pointer. -/
theorem stackAddresses_call (s : System β) {condition : Condition} (target : PlacePair)
    (taken : condition.holds s.flags = true) :
    s.stackAddresses (.call condition target) = [s.sp - 1, s.sp - 2] :=
  if_pos taken

/-- A return that is taken uses the two addresses from the stack pointer on. -/
theorem stackAddresses_ret (s : System β) {condition : Condition}
    (taken : condition.holds s.flags = true) :
    s.stackAddresses (.ret condition) = [s.sp, s.sp + 1] :=
  if_pos taken

/-- What holds of both addresses of a word holds of each. -/
theorem both_of_forall {P : UInt16 → Prop} {a b : UInt16}
    (all : ∀ address ∈ [a, b], P address) : P a ∧ P b :=
  ⟨all a List.mem_cons_self, all b (List.mem_cons_of_mem a List.mem_cons_self)⟩

section Turns

variable [AddressSpace β]

/-- The operation at the program counter. -/
def next (s : System β) : Operation := (s.decode s.cpu.pc).2

/-- Decodes the instruction at the program counter and executes it. -/
def turn (s : System β) : System β := (s.decode s.cpu.pc).1.execute s.next

/-- So many turns, one after the other. -/
def turns (s : System β) : Nat → System β
  | 0 => s
  | n + 1 => (s.turns n).turn

/-- The next turn is no stop, and all that it touches lies on kept places: the bytes of its
instruction, its operands, and its part of the stack. -/
structure Confined (Kept : Place → Prop) (s : System β) : Prop where
  going : s.next.action ≠ .stop
  opcode : Kept (s.resolve s.cpu.pc)
  bytes : ∀ n < s.next.length.toNat, Kept (s.resolve (s.cpu.pc + UInt16.ofNat n))
  operands : s.next.action.operands.All Kept
  stack : ∀ address ∈ s.stackAddresses s.next.action, Kept (s.resolve address)

/-- Which part of the stack is used depends on the registers alone. -/
theorem kept_stack {Kept : Place → Prop}
    (fixed : ∀ (bus other : β) (address : UInt16),
      AddressSpace.resolve bus address = AddressSpace.resolve other address)
    {s t : System β} (registers : t.cpu.registers = s.cpu.registers) {action : Action}
    (stack : ∀ address ∈ s.stackAddresses action, Kept (s.resolve address)) :
    ∀ address ∈ t.stackAddresses action, Kept (t.resolve address) := by
  have used : t.stackAddresses action = s.stackAddresses action := by
    unfold stackAddresses sp flags
    rw [registers]
  intro address member
  rw [used] at member
  rw [resolve, fixed t.bus s.bus]
  exact stack address member

end Turns

/-- The processors are equal and the second address space simulates the first. -/
structure Simulates (Same : β → β' → Prop) (s : System β) (s' : System β') : Prop where
  cpu : s'.cpu = s.cpu
  bus : Same s.bus s'.bus

namespace Simulates

variable {Same : β → β' → Prop} {s t : System β} {s' t' : System β'}

/-- What changes the ledgers and the journals alone keeps the simulation. -/
theorem booked (h : Simulates Same s s') (values : t.cpu = s.cpu ∧ t.bus = s.bus)
    (values' : t'.cpu = s'.cpu ∧ t'.bus = s'.bus) : Simulates Same t t' := by
  obtain ⟨cpu, bus⟩ := values
  obtain ⟨cpu', bus'⟩ := values'
  constructor
  · rw [cpu, cpu', h.cpu]
  · rw [bus, bus']
    exact h.bus

/-- The same change of both processors keeps the simulation. -/
theorem withCpu (h : Simulates Same s s') (f : Cpu → Cpu) :
    Simulates Same { s with cpu := f s.cpu } { s' with cpu := f s'.cpu } :=
  ⟨congrArg f h.cpu, h.bus⟩

/-- The stack pointers are equal. -/
theorem sp (h : Simulates Same s s') : s'.sp = s.sp := by
  simp only [System.sp, h.cpu]

/-- The flags are equal. -/
theorem flags (h : Simulates Same s s') : s'.flags = s.flags := by
  simp only [System.flags, h.cpu]

/-- Setting a register keeps the simulation. -/
theorem setRegister (h : Simulates Same s s') (r : Register) (value : UInt8) :
    Simulates Same (s.setRegister r value) (s'.setRegister r value) :=
  h.withCpu fun cpu => { cpu with registers := cpu.registers.set r value }

/-- Setting the flags keeps the simulation. -/
theorem setFlags (h : Simulates Same s s') (flags : Flags) :
    Simulates Same (s.setFlags flags) (s'.setFlags flags) :=
  h.withCpu fun cpu => { cpu with registers := { cpu.registers with flags } }

/-- A jump keeps the simulation. -/
theorem jumpTo (h : Simulates Same s s') (address : UInt16) :
    Simulates Same (s.jumpTo address) (s'.jumpTo address) :=
  h.withCpu fun cpu => { cpu with pc := address }

/-- Spending cycles keeps the simulation. -/
theorem spend (h : Simulates Same s s') (cycles : UInt64) :
    Simulates Same (s.spend cycles) (s'.spend cycles) :=
  h.withCpu fun cpu => { cpu with cycles := cpu.cycles + cycles }

/-- Switching interrupts on or off keeps the simulation. -/
theorem setInterrupts (h : Simulates Same s s') (enabled : Bool) :
    Simulates Same (s.setInterrupts enabled) (s'.setInterrupts enabled) :=
  h.withCpu fun cpu => { cpu with interruptsEnabled := enabled }

/-- A branch is taken on both sides or on neither. -/
theorem branch (h : Simulates Same s s') (condition : Condition) (extra : UInt64)
    {taken : System β → System β} {taken' : System β' → System β'}
    (keeps : condition.holds s.flags = true → ∀ cycles,
      Simulates Same (taken (s.spend cycles)) (taken' (s'.spend cycles))) :
    Simulates Same (s.branch condition extra taken) (s'.branch condition extra taken') := by
  have free : ∀ {γ : Type} (u : System γ), u = u.spend 0 := by
    intro γ u
    simp only [System.spend, UInt64.add_zero]
  simp only [System.branch, h.flags]
  split
  next holds =>
    split
    · rw [free s, free s']
      exact keeps holds 0
    · exact keeps holds extra
  next => exact h

variable [AddressSpace β] [AddressSpace β']

/-! ## Booking -/

/-- Marking a use keeps the simulation, whatever the two places are. -/
theorem mark (h : Simulates Same s s') (place place' : Place) (usage : Usage) :
    Simulates Same (s.mark place usage) (s'.mark place' usage) :=
  h.booked (by simp) (by simp)

/-- Marking the use of an origin keeps the simulation, whatever the two places are. -/
theorem markOrigin (h : Simulates Same s s') (place place' : Place) (usage : Usage) :
    Simulates Same (s.markOrigin place usage) (s'.markOrigin place' usage) :=
  h.booked (by simp) (by simp)

/-- Marking an instruction keeps the simulation. -/
theorem markInstruction (h : Simulates Same s s') (address : UInt16) (length : UInt8) :
    Simulates Same (s.markInstruction address length) (s'.markInstruction address length) :=
  h.booked (by simp) (by simp)

/-- Writing a register keeps the simulation. -/
theorem writeRegister (h : Simulates Same s s') (r : Register) (value : UInt8) :
    Simulates Same (s.write (.register r) value) (s'.write (.register r) value) :=
  (h.setRegister r value).booked (by simp) (by simp)

/-- Writing a register pair keeps the simulation. -/
theorem writePair (h : Simulates Same s s') (pair : RegisterPair) (value : UInt16) :
    Simulates Same (s.writePair pair value) (s'.writePair pair value) :=
  (h.writeRegister _ _).writeRegister _ _

/-- The step of HL after an access keeps the simulation. -/
theorem stepHl (h : Simulates Same s s') (step : Int8) :
    Simulates Same (s.stepHl step) (s'.stepHl step) := by
  simp only [System.stepHl, h.cpu]
  split
  · exact h
  · exact h.writePair _ _

variable {image : Place → Place} {Kept : Place → Prop}
  [simulation : AddressSpace.Simulation Same image Kept]

include simulation

/-! ## Reading -/

/-- An address stands for the image of its place. -/
theorem resolve (h : Simulates Same s s') (address : UInt16) :
    s'.resolve address = image (s.resolve address) :=
  simulation.resolve h.bus address

/-- A kept place and its image hold the same byte. -/
theorem load (h : Simulates Same s s') {place : Place} (kept : Kept place) :
    s'.load (image place) = s.load place := by
  cases place with
  | register r =>
    rw [simulation.register]
    simp only [System.load, h.cpu]
  | _ =>
    rw [s.load_place (by simp), s'.load_place (simulation.outside kept (by simp))]
    exact simulation.load h.bus kept

/-- A kept pair of places and its image hold the same word. -/
theorem loadWord (h : Simulates Same s s') (pair : PlacePair) (high : Kept pair.high)
    (low : Kept pair.low) : s'.loadWord (pair.image image) = s.loadWord pair := by
  simp only [System.loadWord, PlacePair.image, h.load high, h.load low]

/-! ## The functions through which bytes are touched -/

/-- A store to a kept place and the store to its image keep the simulation. -/
theorem store (h : Simulates Same s s') {place : Place} (kept : Kept place) (value : UInt8) :
    Simulates Same (s.store place value) (s'.store (image place) value) := by
  cases place with
  | register r =>
    rw [simulation.register]
    exact h.setRegister r value
  | _ =>
    rw [s.store_place (by simp), s'.store_place (simulation.outside kept (by simp))]
    exact ⟨h.cpu, simulation.store h.bus kept value⟩

/-- A write to a kept place and the write to its image keep the simulation. -/
theorem write (h : Simulates Same s s') {place : Place} (kept : Kept place) (value : UInt8) :
    Simulates Same (s.write place value) (s'.write (image place) value) :=
  (h.store kept value).booked (by simp) (by simp)

/-- A move between kept places and the move between their images keep the simulation. -/
theorem move (h : Simulates Same s s') {destination source : Place} (target : Kept destination)
    (origin : Kept source) :
    Simulates Same (s.move destination source) (s'.move (image destination) (image source)) := by
  refine (h.store target (s.load source)).booked ⟨rfl, rfl⟩ ?_
  rw [← h.load origin]
  exact ⟨rfl, rfl⟩

/-! ## The stack -/

/-- A push keeps the simulation, from kept places to a kept part of the stack. -/
theorem push (h : Simulates Same s s') {source : PlacePair} (high : Kept source.high)
    (low : Kept source.low) (first : Kept (s.resolve (s.sp - 1)))
    (second : Kept (s.resolve (s.sp - 2))) :
    Simulates Same (s.push source) (s'.push (source.image image)) := by
  simp only [System.push, h.sp, h.resolve]
  exact ((h.move first high).move second low).writePair _ _

/-- A pop keeps the simulation, from a kept part of the stack to kept places. -/
theorem pop (h : Simulates Same s s') {destination : PlacePair} (high : Kept destination.high)
    (low : Kept destination.low) (first : Kept (s.resolve s.sp))
    (second : Kept (s.resolve (s.sp + 1))) :
    Simulates Same (s.pop destination) (s'.pop (destination.image image)) := by
  simp only [System.pop, h.sp, h.resolve]
  exact ((h.move low first).move high second).writePair _ _

/-- The place of the lower byte is looked up after the upper one has been written. -/
theorem pushPc (h : Simulates Same s s') (first : Kept (s.resolve (s.sp - 1)))
    (second : Kept (s.resolve (s.sp - 2))) : Simulates Same s.pushPc s'.pushPc := by
  have upper := h.write first (highByte s.cpu.pc)
  have still : Kept ((s.write (s.resolve (s.sp - 1)) (highByte s.cpu.pc)).resolve (s.sp - 2)) := by
    have same := simulation.fixed (s.write (s.resolve (s.sp - 1)) (highByte s.cpu.pc)).bus s.bus
    rw [System.resolve, same]
    exact second
  simp only [System.pushPc, h.sp, h.resolve, h.cpu, upper.resolve]
  exact (upper.write still _).writePair _ _

/-- Popping a return address from a kept part of the stack keeps the simulation. -/
theorem popPc (h : Simulates Same s s') (first : Kept (s.resolve s.sp))
    (second : Kept (s.resolve (s.sp + 1))) : Simulates Same s.popPc s'.popPc := by
  let top : PlacePair := ⟨s.resolve (s.sp + 1), s.resolve s.sp⟩
  have marked := (h.markOrigin top.low (image top.low) .pointerLow).markOrigin top.high
    (image top.high) .pointerHigh
  have word := marked.loadWord top second first
  simp only [System.popPc, h.sp, h.resolve]
  rw [← word]
  exact (marked.jumpTo _).writePair _ _

/-! ## Actions -/

/-- Writing a result to a kept place keeps the simulation. -/
theorem writeResult (h : Simulates Same s s') {place : Place} (kept : Kept place)
    (old result : UInt8) :
    Simulates Same (s.writeResult place old result) (s'.writeResult (image place) old result) := by
  unfold System.writeResult
  split
  · exact h.write kept _
  · exact h

/-- Counting a kept byte up or down keeps the simulation. -/
theorem stepByte (h : Simulates Same s s') {target : Place} (kept : Kept target) (result : UInt8)
    (subtract half : Bool) :
    Simulates Same (s.stepByte target result subtract half)
      (s'.stepByte (image target) result subtract half) := by
  have written := h.write kept result
  simp only [System.stepByte, written.flags]
  exact written.setFlags _

/-- Counting a kept word up or down keeps the simulation. -/
theorem stepWord (h : Simulates Same s s') {target : PlacePair} (high : Kept target.high)
    (low : Kept target.low) (step carries : UInt8) :
    Simulates Same (s.stepWord target step carries)
      (s'.stepWord (target.image image) step carries) := by
  have marked := (h.markOrigin target.low (image target.low) .wordLow).markOrigin target.high
    (image target.high) .wordHigh
  have lower := fun value => marked.write low value
  simp only [System.stepWord, PlacePair.image, marked.load low, (lower _).load high]
  split
  · exact (lower _).write high _
  · exact lower _

/-- Writing a word to kept places keeps the simulation. -/
theorem writeWord (h : Simulates Same s s') {target : PlacePair} (high : Kept target.high)
    (low : Kept target.low) (value : UInt16) :
    Simulates Same (s.writeWord target value) (s'.writeWord (target.image image) value) :=
  (h.write low _).write high _

/-- A sum or difference of kept bytes keeps the simulation. -/
theorem sumByte (h : Simulates Same s s') (kind : SumKind) {target operand : Place}
    (first : Kept target) (second : Kept operand) :
    Simulates Same (s.sumByte kind target operand)
      (s'.sumByte kind (image target) (image operand)) := by
  simp only [System.sumByte, h.load first, h.load second, h.flags]
  exact (h.setFlags _).writeResult first _ _

/-- A logical operation on kept bytes keeps the simulation. -/
theorem logicByte (h : Simulates Same s s') (kind : LogicKind) {target operand : Place}
    (first : Kept target) (second : Kept operand) :
    Simulates Same (s.logicByte kind target operand)
      (s'.logicByte kind (image target) (image operand)) := by
  simp only [System.logicByte, h.load first, h.load second]
  exact (h.setFlags _).writeResult first _ _

/-- A comparison of kept bytes keeps the simulation. -/
theorem compareByte (h : Simulates Same s s') {target operand : Place} (first : Kept target)
    (second : Kept operand) :
    Simulates Same (s.compareByte target operand)
      (s'.compareByte (image target) (image operand)) := by
  simp only [System.compareByte, h.load first, h.load second]
  exact h.setFlags _

/-- A sum of kept words keeps the simulation. -/
theorem addWord (h : Simulates Same s s') {target operand : PlacePair} (high : Kept target.high)
    (low : Kept target.low) (high' : Kept operand.high) (low' : Kept operand.low) :
    Simulates Same (s.addWord target operand)
      (s'.addWord (target.image image) (operand.image image)) := by
  have marked := (((h.markOrigin operand.low (image operand.low) .wordLow).markOrigin operand.high
    (image operand.high) .wordHigh).markOrigin target.low (image target.low) .wordLow).markOrigin
    target.high (image target.high) .wordHigh
  have first := marked.loadWord target high low
  have second := marked.loadWord operand high' low'
  simp only [System.addWord, ← first, ← second, ← marked.flags]
  exact (marked.setFlags _).writeWord high low _

/-- An offset from the stack pointer, written to kept places, keeps the simulation. -/
theorem writeStackOffset (h : Simulates Same s s') {target : PlacePair} {offset : Place}
    (high : Kept target.high) (low : Kept target.low) (kept : Kept offset) :
    Simulates Same (s.writeStackOffset target offset)
      (s'.writeStackOffset (target.image image) (image offset)) := by
  simp only [System.writeStackOffset, h.sp, h.load kept]
  exact (h.setFlags _).writeWord high low _

/-- A rotation of a kept byte keeps the simulation. -/
theorem rotateByte (h : Simulates Same s s') (kind : RotateKind) {target : Place}
    (kept : Kept target) :
    Simulates Same (s.rotateByte kind target) (s'.rotateByte kind (image target)) := by
  simp only [System.rotateByte, h.load kept, h.flags]
  exact (h.write kept _).setFlags _

/-- The decimal adjustment of a kept byte keeps the simulation. -/
theorem adjustByte (h : Simulates Same s s') {target : Place} (kept : Kept target) :
    Simulates Same (s.adjustByte target) (s'.adjustByte (image target)) := by
  have written := fun value => h.write kept value
  simp only [System.adjustByte, h.load kept, h.flags, (written _).flags]
  exact (written _).setFlags _

/-- The complement of a kept byte keeps the simulation. -/
theorem complementByte (h : Simulates Same s s') {target : Place} (kept : Kept target) :
    Simulates Same (s.complementByte target) (s'.complementByte (image target)) := by
  have written := fun value => h.write kept value
  simp only [System.complementByte, h.load kept, (written _).flags]
  exact (written _).setFlags _

/-- A shift of a kept byte keeps the simulation. -/
theorem shiftByte (h : Simulates Same s s') (kind : ShiftKind) {target : Place}
    (kept : Kept target) :
    Simulates Same (s.shiftByte kind target) (s'.shiftByte kind (image target)) := by
  simp only [System.shiftByte, h.load kept, h.flags]
  exact (h.write kept _).setFlags _

/-- A bit test of a kept byte keeps the simulation. -/
theorem testBit (h : Simulates Same s s') (index : Fin 8) {target : Place} (kept : Kept target) :
    Simulates Same (s.testBit index target) (s'.testBit index (image target)) := by
  simp only [System.testBit, h.load kept, h.flags]
  exact h.setFlags _

/-- A relative jump by a kept offset keeps the simulation. -/
theorem jumpRelative (h : Simulates Same s s') (condition : Condition) {offset : Place}
    (kept : Kept offset) :
    Simulates Same (s.jumpRelative condition offset)
      (s'.jumpRelative condition (image offset)) := by
  refine h.branch condition 4 fun _ cycles => ?_
  have taken := h.spend cycles
  simp only [taken.cpu, taken.load kept]
  exact taken.jumpTo _

/-- A jump to a kept target keeps the simulation. -/
theorem jump (h : Simulates Same s s') (condition : Condition) {target : PlacePair}
    (high : Kept target.high) (low : Kept target.low) :
    Simulates Same (s.jump condition target) (s'.jump condition (target.image image)) := by
  refine h.branch condition 4 fun _ cycles => ?_
  have taken := h.spend cycles
  have marked := (taken.markOrigin target.low (image target.low) .pointerLow).markOrigin
    target.high (image target.high) .pointerHigh
  by_cases always : condition = .always
  · have word := marked.loadWord target high low
    simp only [if_pos always, ← word]
    exact marked.jumpTo _
  · simp only [if_neg always, taken.loadWord target high low]
    exact taken.jumpTo _

/-- The part of the stack is used only where the call is made. -/
theorem call (h : Simulates Same s s') (condition : Condition) {target : PlacePair}
    (high : Kept target.high) (low : Kept target.low)
    (stack : ∀ address ∈ s.stackAddresses (.call condition target), Kept (s.resolve address)) :
    Simulates Same (s.call condition target) (s'.call condition (target.image image)) := by
  refine h.branch condition 12 fun holds cycles => ?_
  rw [s.stackAddresses_call target holds] at stack
  obtain ⟨first, second⟩ := both_of_forall stack
  have pushed := (h.spend cycles).pushPc first second
  simp only [pushed.loadWord target high low]
  exact pushed.jumpTo _

/-- A return from a kept part of the stack keeps the simulation. -/
theorem ret (h : Simulates Same s s') (condition : Condition)
    (stack : ∀ address ∈ s.stackAddresses (.ret condition), Kept (s.resolve address)) :
    Simulates Same (s.ret condition) (s'.ret condition) := by
  refine h.branch condition 12 fun holds cycles => ?_
  rw [s.stackAddresses_ret holds] at stack
  obtain ⟨first, second⟩ := both_of_forall stack
  exact (h.spend cycles).popPc first second

/-- The case of an action is the statement about the function that carries it out. -/
theorem act (h : Simulates Same s s') {action : Action} (going : action ≠ .stop)
    (operands : action.operands.All Kept)
    (stack : ∀ address ∈ s.stackAddresses action, Kept (s.resolve address)) :
    Simulates Same (s.act action) (s'.act (action.image image)) := by
  obtain ⟨high, low, high', low'⟩ := operands
  cases action with
  | nop => exact h
  | illegal => exact h
  | stop => exact absurd rfl going
  | halt => exact h.withCpu fun cpu => { cpu with halted := true }
  | disableInterrupts => exact h.setInterrupts false
  | enableInterrupts => exact h.setInterrupts true
  | load8 destination source =>
    exact (h.mark source (image source) .data).move (low _ rfl) (low' _ rfl)
  | load16 destination source =>
    exact (h.move (high _ rfl) (high' _ rfl)).move (low _ rfl) (low' _ rfl)
  | loadStackOffset destination offset =>
    exact h.writeStackOffset (high _ rfl) (low _ rfl) (low' _ rfl)
  | push source =>
    obtain ⟨first, second⟩ := both_of_forall stack
    exact h.push (high' _ rfl) (low' _ rfl) first second
  | pop destination =>
    obtain ⟨first, second⟩ := both_of_forall stack
    exact h.pop (high _ rfl) (low _ rfl) first second
  | inc8 target =>
    simp only [System.act, Action.image, h.load (low _ rfl)]
    exact h.stepByte (low _ rfl) _ _ _
  | dec8 target =>
    simp only [System.act, Action.image, h.load (low _ rfl)]
    exact h.stepByte (low _ rfl) _ _ _
  | inc16 target => exact h.stepWord (high _ rfl) (low _ rfl) _ _
  | dec16 target => exact h.stepWord (high _ rfl) (low _ rfl) _ _
  | sum8 kind target operand => exact h.sumByte kind (low _ rfl) (low' _ rfl)
  | logic8 kind target operand => exact h.logicByte kind (low _ rfl) (low' _ rfl)
  | compare8 target operand => exact h.compareByte (low _ rfl) (low' _ rfl)
  | add16 target operand =>
    exact h.addWord (high _ rfl) (low _ rfl) (high' _ rfl) (low' _ rfl)
  | addStackOffset target offset =>
    exact h.writeStackOffset (high _ rfl) (low _ rfl) (low' _ rfl)
  | rotateAccumulator kind target => exact h.rotateByte kind (low _ rfl)
  | decimalAdjust target => exact h.adjustByte (low _ rfl)
  | complement target => exact h.complementByte (low _ rfl)
  | setCarry =>
    simp only [System.act, Action.image, h.flags]
    exact h.setFlags _
  | invertCarry =>
    simp only [System.act, Action.image, h.flags]
    exact h.setFlags _
  | jumpRelative condition offset => exact h.jumpRelative condition (low' _ rfl)
  | jump condition target => exact h.jump condition (high' _ rfl) (low' _ rfl)
  | call condition target => exact h.call condition (high' _ rfl) (low' _ rfl) stack
  | ret condition => exact h.ret condition stack
  | returnFromInterrupt =>
    obtain ⟨first, second⟩ := both_of_forall stack
    exact (h.popPc first second).setInterrupts true
  | restart vector =>
    obtain ⟨first, second⟩ := both_of_forall stack
    exact (h.pushPc first second).jumpTo _
  | shift kind target => exact h.shiftByte kind (low _ rfl)
  | testBit index target => exact h.testBit index (low _ rfl)
  | clearBit index target =>
    simp only [System.act, Action.image, h.load (low _ rfl)]
    exact h.write (low _ rfl) _
  | setBit index target =>
    simp only [System.act, Action.image, h.load (low _ rfl)]
    exact h.write (low _ rfl) _

/-! ## Turns -/

/-- Moving on to the next instruction keeps the simulation. -/
theorem advance (h : Simulates Same s s') (operation : Operation) :
    Simulates Same (s.advance operation) (s'.advance (operation.image image)) := by
  constructor
  · simp only [System.advance, Operation.image, h.cpu]
  · simp only [System.advance, Operation.image, h.cpu]
    exact simulation.sync h.bus _

/-- Both processors are made ready, the one for the image of the other's operation. -/
theorem execute (h : Simulates Same s s') {operation : Operation} (going : operation.action ≠ .stop)
    (operands : operation.action.operands.All Kept)
    (stack : ∀ address ∈ s.stackAddresses operation.action, Kept (s.resolve address)) :
    Simulates Same (s.execute operation) (s'.execute (operation.image image)) := by
  have ready : Simulates Same (s.ready operation) (s'.ready (operation.image image)) := by
    simp only [System.ready, h.cpu]
    exact (h.markInstruction _ _).advance operation
  have registers : (s.ready operation).cpu.registers = s.cpu.registers := by
    rw [s.ready_cpu]
  have stack' := kept_stack simulation.fixed registers stack
  exact (ready.act going operands stack').stepHl _

/-- Confined, both processors come to the same instruction. -/
theorem next (h : Simulates Same s s') (confined : s.Confined Kept) :
    s'.next = s.next.image image := by
  have bytes : ∀ address, Kept (s.resolve address) →
      AddressSpace.read s'.bus address = AddressSpace.read s.bus address := by
    intro address kept
    unfold AddressSpace.read
    rw [simulation.resolve h.bus]
    exact simulation.load h.bus kept
  unfold System.next
  rw [decode_operation, decode_operation, h.cpu]
  refine decode_image simulation.register (simulation.resolve h.bus) _ (bytes _ confined.opcode) ?_
  intro n within
  exact bytes _ (confined.bytes n within)

/-- A turn that stays on kept places is simulated. -/
theorem turn (h : Simulates Same s s') (confined : s.Confined Kept) :
    Simulates Same s.turn s'.turn := by
  have decoded : Simulates Same (s.decode s.cpu.pc).1 (s'.decode s'.cpu.pc).1 :=
    h.booked (by simp) (by simp)
  unfold System.turn
  rw [h.next confined]
  have registers : (s.decode s.cpu.pc).1.cpu.registers = s.cpu.registers := by
    rw [decode_cpu]
  have stack := kept_stack simulation.fixed registers confined.stack
  exact decoded.execute confined.going confined.operands stack

/-- By induction on the number of turns: one more turn is a turn of what they led to. -/
theorem turns (h : Simulates Same s s') (n : Nat) (confined : ∀ k < n, (s.turns k).Confined Kept) :
    Simulates Same (s.turns n) (s'.turns n) := by
  induction n with
  | zero => exact h
  | succ n ih =>
    have before := ih fun k earlier => confined k (Nat.lt_succ_of_lt earlier)
    exact before.turn (confined n (Nat.lt_succ_self n))

end Simulates

end System

end Handheld
