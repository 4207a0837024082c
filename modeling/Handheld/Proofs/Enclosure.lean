import Handheld.Proofs.System

/-!
# Address spaces around others

An address space may be built around another one, to keep something beside it. What is
looked up there is looked up in the one inside, and what is stored there, the time and the
speed reach the one inside. A processor cannot tell the two apart: whatever it does to an
address space around another it does to the one inside (`inside_execute`). So what is kept
beside the address space can be read off a run without a second account of what each
instruction does.

Nothing is said here about the requests, which a processor changes only when it checks for
interrupts.
-/

set_option autoImplicit false

namespace Handheld

/-- An address space is built around another one, which is found inside by `inner`. -/
class AddressSpace.Encloses {γ β : Type} [AddressSpace γ] [AddressSpace β] (inner : γ → β) :
    Prop where
  resolve : ∀ outer, AddressSpace.resolve (inner outer) = AddressSpace.resolve outer
  byte? : ∀ outer, AddressSpace.byte? (inner outer) = AddressSpace.byte? outer
  load : ∀ outer, AddressSpace.load (inner outer) = AddressSpace.load outer
  trail : ∀ outer, AddressSpace.trail (inner outer) = AddressSpace.trail outer
  announce : ∀ outer, AddressSpace.announce (inner outer) = AddressSpace.announce outer
  romBank : ∀ outer, AddressSpace.romBank (inner outer) = AddressSpace.romBank outer
  speedSwitchArmed : ∀ outer,
    AddressSpace.speedSwitchArmed (inner outer) = AddressSpace.speedSwitchArmed outer
  store : ∀ outer place value,
    inner (AddressSpace.store outer place value) = AddressSpace.store (inner outer) place value
  sync : ∀ outer cycles,
    inner (AddressSpace.sync outer cycles) = AddressSpace.sync (inner outer) cycles
  setDoubleSpeed : ∀ outer double,
    inner (AddressSpace.setDoubleSpeed outer double) =
      AddressSpace.setDoubleSpeed (inner outer) double

namespace System

open AddressSpace (Encloses)

variable {γ β : Type}

/-- The same processor in the address space inside. -/
def inside (inner : γ → β) (s : System γ) : System β := { s with bus := inner s.bus }

variable {inner : γ → β} (s : System γ)

/-- The processor is the same inside. -/
@[simp] theorem inside_cpu : (s.inside inner).cpu = s.cpu := rfl

/-- The flags are the same inside. -/
@[simp] theorem inside_flags : (s.inside inner).flags = s.flags := rfl

/-- The stack pointer is the same inside. -/
@[simp] theorem inside_sp : (s.inside inner).sp = s.sp := rfl

/-- Setting the flags does the same inside. -/
@[simp] theorem inside_setFlags (flags : Flags) :
    (s.setFlags flags).inside inner = (s.inside inner).setFlags flags := rfl

/-- A jump does the same inside. -/
@[simp] theorem inside_jumpTo (address : UInt16) :
    (s.jumpTo address).inside inner = (s.inside inner).jumpTo address := rfl

/-- Spending cycles does the same inside. -/
@[simp] theorem inside_spend (cycles : UInt64) :
    (s.spend cycles).inside inner = (s.inside inner).spend cycles := rfl

/-- Switching interrupts on or off does the same inside. -/
@[simp] theorem inside_setInterrupts (enabled : Bool) :
    (s.setInterrupts enabled).inside inner = (s.inside inner).setInterrupts enabled := rfl

variable [AddressSpace γ] [AddressSpace β] [Encloses inner]

/-! ## Bytes -/

/-- An address stands for the same place inside. -/
@[simp] theorem inside_resolve (address : UInt16) :
    (s.inside inner).resolve address = s.resolve address :=
  congrFun (Encloses.resolve s.bus) address

/-- The same places hold a byte. -/
theorem present_inner (outer : γ) : present (inner outer) = present outer := by
  have bytes : AddressSpace.byte? (inner outer) = AddressSpace.byte? outer := Encloses.byte? outer
  funext place
  cases place with
  | register r => rfl
  | _ => exact congrArg Option.isSome (congrFun bytes _)

/-- A place holds the same byte inside. -/
@[simp] theorem inside_load (place : Place) : (s.inside inner).load place = s.load place := by
  cases place with
  | register r => rfl
  | _ => exact congrFun (Encloses.load s.bus) _

/-- A pair of places holds the same word inside. -/
@[simp] theorem inside_loadWord (pair : PlacePair) :
    (s.inside inner).loadWord pair = s.loadWord pair := by
  simp [loadWord]

/-- A store reaches the address space inside. -/
@[simp] theorem inside_store (place : Place) (value : UInt8) :
    (s.store place value).inside inner = (s.inside inner).store place value := by
  cases place with
  | register r => rfl
  | _ => simp only [store, inside, Encloses.trail, Encloses.announce, Encloses.store]

/-- Clearing an origin does the same inside. -/
@[simp] theorem inside_clearOrigin (place : Place) :
    (s.clearOrigin place).inside inner = (s.inside inner).clearOrigin place := by
  simp only [clearOrigin_eq, inside, present_inner]

/-- Marking a use does the same inside. -/
@[simp] theorem inside_mark (place : Place) (usage : Usage) :
    (s.mark place usage).inside inner = (s.inside inner).mark place usage := by
  simp only [mark_eq, inside, present_inner, Encloses.romBank]

/-- Marking the use of an origin does the same inside. -/
@[simp] theorem inside_markOrigin (place : Place) (usage : Usage) :
    (s.markOrigin place usage).inside inner = (s.inside inner).markOrigin place usage := by
  have same : (s.inside inner).origin? place = s.origin? place := by
    simp only [origin?, inside, present_inner]
  unfold markOrigin
  rw [same]
  split <;> simp

/-- A write does the same inside. -/
@[simp] theorem inside_write (place : Place) (value : UInt8) :
    (s.write place value).inside inner = (s.inside inner).write place value := by
  simp [write]

/-- A move does the same inside. -/
@[simp] theorem inside_move (destination source : Place) :
    (s.move destination source).inside inner = (s.inside inner).move destination source := by
  have stored : (s.store destination (s.load source)).inside inner = _ :=
    s.inside_store destination (s.load source)
  simp only [move, inside_load, ← stored]
  simp only [inside, present_inner]

/-- Writing a register pair does the same inside. -/
@[simp] theorem inside_writePair (pair : RegisterPair) (value : UInt16) :
    (s.writePair pair value).inside inner = (s.inside inner).writePair pair value := by
  simp [writePair]

/-- Writing a word does the same inside. -/
@[simp] theorem inside_writeWord (target : PlacePair) (value : UInt16) :
    (s.writeWord target value).inside inner = (s.inside inner).writeWord target value := by
  simp [writeWord]

/-- Writing a result does the same inside. -/
@[simp] theorem inside_writeResult (place : Place) (old result : UInt8) :
    (s.writeResult place old result).inside inner =
      (s.inside inner).writeResult place old result := by
  unfold writeResult
  split <;> simp

/-! ## The stack

What is looked up between two writes is looked up in the state between them: there the
equations for `write` and for marks are used from right to left. -/

/-- A push does the same inside. -/
@[simp] theorem inside_push (source : PlacePair) :
    (s.push source).inside inner = (s.inside inner).push source := by
  simp [push]

/-- A pop does the same inside. -/
@[simp] theorem inside_pop (destination : PlacePair) :
    (s.pop destination).inside inner = (s.inside inner).pop destination := by
  simp [pop]

/-- Pushing the program counter does the same inside. -/
@[simp] theorem inside_pushPc : s.pushPc.inside inner = (s.inside inner).pushPc := by
  simp [pushPc, ← inside_write]

/-- Popping a return address does the same inside. -/
@[simp] theorem inside_popPc : s.popPc.inside inner = (s.inside inner).popPc := by
  simp [popPc, ← inside_markOrigin]

/-! ## Actions -/

/-- Counting a byte up or down does the same inside. -/
theorem inside_stepByte (target : Place) (result : UInt8) (subtract half : Bool) :
    (s.stepByte target result subtract half).inside inner =
      (s.inside inner).stepByte target result subtract half := by
  simp [stepByte, ← inside_write]

/-- Counting a word up or down does the same inside. -/
theorem inside_stepWord (target : PlacePair) (step carries : UInt8) :
    (s.stepWord target step carries).inside inner =
      (s.inside inner).stepWord target step carries := by
  simp only [stepWord, ← inside_markOrigin, ← inside_write, inside_load]
  split <;> simp

/-- A sum or difference does the same inside. -/
theorem inside_sumByte (kind : SumKind) (target operand : Place) :
    (s.sumByte kind target operand).inside inner =
      (s.inside inner).sumByte kind target operand := by
  simp [sumByte]

/-- A logical operation does the same inside. -/
theorem inside_logicByte (kind : LogicKind) (target operand : Place) :
    (s.logicByte kind target operand).inside inner =
      (s.inside inner).logicByte kind target operand := by
  simp [logicByte]

/-- A comparison does the same inside. -/
theorem inside_compareByte (target operand : Place) :
    (s.compareByte target operand).inside inner = (s.inside inner).compareByte target operand := by
  simp [compareByte]

/-- A sum of words does the same inside. -/
theorem inside_addWord (target operand : PlacePair) :
    (s.addWord target operand).inside inner = (s.inside inner).addWord target operand := by
  simp [addWord, ← inside_markOrigin]

/-- An offset from the stack pointer does the same inside. -/
theorem inside_writeStackOffset (target : PlacePair) (offset : Place) :
    (s.writeStackOffset target offset).inside inner =
      (s.inside inner).writeStackOffset target offset := by
  simp [writeStackOffset]

/-- A rotation does the same inside. -/
theorem inside_rotateByte (kind : RotateKind) (target : Place) :
    (s.rotateByte kind target).inside inner = (s.inside inner).rotateByte kind target := by
  simp [rotateByte]

/-- The decimal adjustment does the same inside. -/
theorem inside_adjustByte (target : Place) :
    (s.adjustByte target).inside inner = (s.inside inner).adjustByte target := by
  simp [adjustByte, ← inside_write]

/-- The complement does the same inside. -/
theorem inside_complementByte (target : Place) :
    (s.complementByte target).inside inner = (s.inside inner).complementByte target := by
  simp [complementByte, ← inside_write]

/-- A shift does the same inside. -/
theorem inside_shiftByte (kind : ShiftKind) (target : Place) :
    (s.shiftByte kind target).inside inner = (s.inside inner).shiftByte kind target := by
  simp [shiftByte]

/-- A bit test does the same inside. -/
theorem inside_testBit (index : Fin 8) (target : Place) :
    (s.testBit index target).inside inner = (s.inside inner).testBit index target := by
  simp [testBit]

omit [AddressSpace γ] [AddressSpace β] [Encloses inner] in
/-- A branch does the same inside, if what it does when it is taken does. -/
theorem inside_branch (condition : Condition) (extra : UInt64)
    {taken : System γ → System γ} {taken' : System β → System β}
    (same : ∀ t, (taken t).inside inner = taken' (t.inside inner)) :
    (s.branch condition extra taken).inside inner =
      (s.inside inner).branch condition extra taken' := by
  by_cases holds : condition.holds s.flags = true
  · simp only [branch, inside_flags, holds, if_true, same]
    split <;> simp
  · simp [branch, holds]

/-- A relative jump does the same inside. -/
theorem inside_jumpRelative (condition : Condition) (offset : Place) :
    (s.jumpRelative condition offset).inside inner =
      (s.inside inner).jumpRelative condition offset := by
  apply inside_branch
  simp

/-- A conditional jump does the same inside. -/
theorem inside_jump (condition : Condition) (target : PlacePair) :
    (s.jump condition target).inside inner = (s.inside inner).jump condition target := by
  apply inside_branch
  intro t
  by_cases always : condition = .always
  · simp [always, ← inside_markOrigin]
  · simp [always]

/-- A call does the same inside. -/
theorem inside_call (condition : Condition) (target : PlacePair) :
    (s.call condition target).inside inner = (s.inside inner).call condition target := by
  apply inside_branch
  simp [← inside_pushPc]

/-- A return does the same inside. -/
theorem inside_ret (condition : Condition) :
    (s.ret condition).inside inner = (s.inside inner).ret condition := by
  apply inside_branch
  simp

/-- A change of speed does the same inside. -/
theorem inside_switchSpeed : s.switchSpeed.inside inner = (s.inside inner).switchSpeed := by
  have armed : AddressSpace.speedSwitchArmed (s.inside inner).bus =
      AddressSpace.speedSwitchArmed s.bus := Encloses.speedSwitchArmed s.bus
  simp only [switchSpeed, armed, inside_cpu]
  split
  · simp only [inside, Encloses.setDoubleSpeed]
    rfl
  · rfl

/-- An action does to an address space around another what it does to the one inside. -/
theorem inside_act (action : Action) :
    (s.act action).inside inner = (s.inside inner).act action := by
  cases action with
  | nop | illegal | halt | disableInterrupts | enableInterrupts | setCarry | invertCarry => rfl
  | stop => exact s.inside_switchSpeed
  | loadStackOffset destination offset => exact s.inside_writeStackOffset destination offset
  | inc8 target => simp [act, inside_stepByte]
  | dec8 target => simp [act, inside_stepByte]
  | inc16 target => exact s.inside_stepWord target 1 0x00
  | dec16 target => exact s.inside_stepWord target 0xFF 0xFF
  | sum8 kind target operand => exact s.inside_sumByte kind target operand
  | logic8 kind target operand => exact s.inside_logicByte kind target operand
  | compare8 target operand => exact s.inside_compareByte target operand
  | add16 target operand => exact s.inside_addWord target operand
  | addStackOffset target offset => exact s.inside_writeStackOffset target offset
  | rotateAccumulator kind target => exact s.inside_rotateByte kind target
  | decimalAdjust target => exact s.inside_adjustByte target
  | complement target => exact s.inside_complementByte target
  | jumpRelative condition offset => exact s.inside_jumpRelative condition offset
  | jump condition target => exact s.inside_jump condition target
  | call condition target => exact s.inside_call condition target
  | ret condition => exact s.inside_ret condition
  | shift kind target => exact s.inside_shiftByte kind target
  | testBit index target => exact s.inside_testBit index target
  | load8 | load16 | push | pop | returnFromInterrupt | restart | clearBit | setBit => simp [act]

/-! ## Execution -/

/-- Marking the operands of an instruction does the same inside. -/
theorem inside_markOperands (address : UInt16) (count : Nat) :
    (s.markOperands address count).inside inner = (s.inside inner).markOperands address count := by
  induction count with
  | zero => rfl
  | succ count ih => simp [markOperands, ← ih]

/-- Marking an instruction does the same inside. -/
@[simp] theorem inside_markInstruction (address : UInt16) (length : UInt8) :
    (s.markInstruction address length).inside inner =
      (s.inside inner).markInstruction address length := by
  simp [markInstruction, inside_markOperands]

/-- Moving on to the next instruction does the same inside. -/
@[simp] theorem inside_advance (operation : Operation) :
    (s.advance operation).inside inner = (s.inside inner).advance operation := by
  simp only [advance, inside, Encloses.sync]

/-- The step of HL after an access does the same inside. -/
@[simp] theorem inside_stepHl (step : Int8) :
    (s.stepHl step).inside inner = (s.inside inner).stepHl step := by
  unfold stepHl
  split <;> simp

/-- An instruction does to it what it does to the one inside. -/
theorem inside_execute (operation : Operation) :
    (s.execute operation).inside inner = (s.inside inner).execute operation := by
  simp [execute, inside_act]

/-- Entering an interrupt handler does the same inside. -/
theorem inside_enterHandler (vector : UInt16) :
    (s.enterHandler vector).inside inner = (s.inside inner).enterHandler vector := by
  simp [enterHandler]

end System

end Handheld
