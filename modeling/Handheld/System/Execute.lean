import Handheld.System.Stack

/-!
# Executing operations

An operation first marks the bytes it was decoded from, then the program counter
and the cycle counter advance, and only then its action takes effect. So a call
pushes the address of the next instruction, and a device sees the cost of the
instruction that writes to it.
-/

set_option autoImplicit false

namespace Handheld.System

variable {β : Type} [AddressSpace β]

/-- Writes a result of the arithmetic unit unless the place holds it already, so
that an operation that changes nothing keeps the origin. -/
def writeResult (s : System β) (place : Place) (old result : UInt8) : System β :=
  if result ≠ old then s.write place result else s

/-- Adds one to a byte, or takes one from it, and sets all flags but the carry. -/
def stepByte (s : System β) (target : Place) (result : UInt8) (subtract half : Bool) : System β :=
  let s := s.write target result
  s.setFlags { s.flags with z := result == 0, n := subtract, h := half }

/-- Adds `step` to a word byte by byte. The upper byte is written again only if the
lower one reaches `carries`, the value at which it has wrapped. -/
def stepWord (s : System β) (target : PlacePair) (step carries : UInt8) : System β :=
  let s := s.markOrigin target.low .wordLow
  let s := s.markOrigin target.high .wordHigh
  let low := s.load target.low + step
  let s := s.write target.low low
  if low == carries then
    s.write target.high (s.load target.high + step)
  else
    s

/-- Writes a word to two places, its lower byte first. -/
def writeWord (s : System β) (target : PlacePair) (value : UInt16) : System β :=
  (s.write target.low (lowByte value)).write target.high (highByte value)

/-- Adds or subtracts a byte. -/
def sumByte (s : System β) (kind : SumKind) (target operand : Place) : System β :=
  let old := s.load target
  let result := kind.apply old (s.load operand) s.flags.c
  (s.setFlags result.flags).writeResult target old result.value

/-- Combines two bytes bit by bit. -/
def logicByte (s : System β) (kind : LogicKind) (target operand : Place) : System β :=
  let old := s.load target
  let result := kind.apply old (s.load operand)
  (s.setFlags result.flags).writeResult target old result.value

/-- Sets the flags of a subtraction and writes nothing else. -/
def compareByte (s : System β) (target operand : Place) : System β :=
  s.setFlags (subBytes (s.load target) (s.load operand) false).flags

/-- Adds a word. -/
def addWord (s : System β) (target operand : PlacePair) : System β :=
  let s := s.markOrigin operand.low .wordLow
  let s := s.markOrigin operand.high .wordHigh
  let s := s.markOrigin target.low .wordLow
  let s := s.markOrigin target.high .wordHigh
  let (result, flags) := addWords (s.loadWord target) (s.loadWord operand) s.flags
  (s.setFlags flags).writeWord target result

/-- Writes the stack pointer moved by a signed byte. -/
def writeStackOffset (s : System β) (target : PlacePair) (offset : Place) : System β :=
  let (result, flags) := offsetWord s.sp (s.load offset)
  (s.setFlags flags).writeWord target result

/-- Turns the accumulator; the zero flag is always cleared. -/
def rotateByte (s : System β) (kind : RotateKind) (target : Place) : System β :=
  let (result, carry) := kind.apply (s.load target) s.flags.c
  (s.write target result).setFlags { c := carry }

/-- Brings the accumulator into packed decimal form. -/
def adjustByte (s : System β) (target : Place) : System β :=
  let result := decimalAdjust (s.load target) s.flags
  let s := s.write target result.value
  s.setFlags { s.flags with z := result.flags.z, h := false, c := result.flags.c }

/-- Inverts the accumulator. -/
def complementByte (s : System β) (target : Place) : System β :=
  let s := s.write target (~~~ s.load target)
  s.setFlags { s.flags with n := true, h := true }

/-- Turns or shifts a byte. -/
def shiftByte (s : System β) (kind : ShiftKind) (target : Place) : System β :=
  let (result, carry) := kind.apply (s.load target) s.flags.c
  (s.write target result).setFlags { z := result == 0, c := carry }

/-- A byte in which one bit is set. -/
def bitMask (index : Fin 8) : UInt8 := 1 <<< UInt8.ofNat index

/-- Tests a bit. -/
def testBit (s : System β) (index : Fin 8) (target : Place) : System β :=
  let value := s.load target
  s.setFlags { s.flags with z := value &&& bitMask index == 0, n := false, h := true }

/-- Whether a branch is taken. A conditional one that is taken costs `extra`
cycles more. -/
def branch (s : System β) (condition : Condition) (extra : UInt64)
    (taken : System β → System β) : System β :=
  if condition.holds s.flags then
    taken (if condition = .always then s else s.spend extra)
  else
    s

/-- Jumps by a signed byte. -/
def jumpRelative (s : System β) (condition : Condition) (offset : Place) : System β :=
  s.branch condition 4 fun s => s.jumpTo (s.cpu.pc + signExtend (s.load offset))

/-- Jumps to a word; an unconditional jump marks the sources of the word. -/
def jump (s : System β) (condition : Condition) (target : PlacePair) : System β :=
  s.branch condition 4 fun s =>
    let s :=
      if condition = .always then
        (s.markOrigin target.low .pointerLow).markOrigin target.high .pointerHigh
      else
        s
    s.jumpTo (s.loadWord target)

/-- Calls the routine at a word. The word is read after the push. -/
def call (s : System β) (condition : Condition) (target : PlacePair) : System β :=
  s.branch condition 12 fun s =>
    let s := s.pushPc
    s.jumpTo (s.loadWord target)

/-- Returns to the address on the stack. -/
def ret (s : System β) (condition : Condition) : System β :=
  s.branch condition 12 popPc

/-- Switches between the two speeds if the machine can and the program armed the
switch; otherwise nothing happens. -/
def switchSpeed (s : System β) : System β :=
  if s.cpu.color && AddressSpace.speedSwitchArmed s.bus then
    let ⟨cpu, bus, ledger, journal⟩ := s
    let speed := if cpu.speed = 1 then 2 else 1
    { cpu := { cpu with speed }
      bus := AddressSpace.setDoubleSpeed bus (speed == 2)
      ledger
      journal := journal.push (.speedSwitch speed cpu.cycles) }
  else
    s

/-- The effect of an action. -/
def act (s : System β) : Action → System β
  | .nop | .illegal => s
  | .stop => s.switchSpeed
  | .halt => { s with cpu := { s.cpu with halted := true } }
  | .disableInterrupts => s.setInterrupts false
  | .enableInterrupts => s.setInterrupts true
  | .load8 destination source => (s.mark source .data).move destination source
  | .load16 destination source =>
    (s.move destination.high source.high).move destination.low source.low
  | .loadStackOffset destination offset => s.writeStackOffset destination offset
  | .push source => s.push source
  | .pop destination => s.pop destination
  | .inc8 target =>
    let old := s.load target
    s.stepByte target (old + 1) false (old &&& 0x0F == 0x0F)
  | .dec8 target =>
    let old := s.load target
    s.stepByte target (old - 1) true (old &&& 0x0F == 0x00)
  | .inc16 target => s.stepWord target 1 0x00
  | .dec16 target => s.stepWord target 0xFF 0xFF
  | .sum8 kind target operand => s.sumByte kind target operand
  | .logic8 kind target operand => s.logicByte kind target operand
  | .compare8 target operand => s.compareByte target operand
  | .add16 target operand => s.addWord target operand
  | .addStackOffset target offset => s.writeStackOffset target offset
  | .rotateAccumulator kind target => s.rotateByte kind target
  | .decimalAdjust target => s.adjustByte target
  | .complement target => s.complementByte target
  | .setCarry => s.setFlags { s.flags with n := false, h := false, c := true }
  | .invertCarry => s.setFlags { s.flags with n := false, h := false, c := !s.flags.c }
  | .jumpRelative condition offset => s.jumpRelative condition offset
  | .jump condition target => s.jump condition target
  | .call condition target => s.call condition target
  | .ret condition => s.ret condition
  | .returnFromInterrupt => s.popPc.setInterrupts true
  | .restart vector => s.pushPc.jumpTo vector.toUInt16
  | .shift kind target => s.shiftByte kind target
  | .testBit index target => s.testBit index target
  | .clearBit index target => s.write target (s.load target &&& ~~~ bitMask index)
  | .setBit index target => s.write target (s.load target ||| bitMask index)

/-- Marks the `count` bytes that follow the opcode at an address as operands. -/
def markOperands (s : System β) (address : UInt16) : Nat → System β
  | 0 => s
  | count + 1 =>
    let s := s.markOperands address count
    s.mark (s.resolve (address + UInt16.ofNat (count + 1))) (Usage.instruction.union .data)

/-- Marks the bytes of an instruction of `length` bytes at an address. -/
def markInstruction (s : System β) (address : UInt16) (length : UInt8) : System β :=
  (s.mark (s.resolve address) .instruction).markOperands address (length.toNat - 1)

/-- Moves the program counter and the clock past an operation. -/
def advance (s : System β) (operation : Operation) : System β :=
  let ⟨cpu, bus, ledger, journal⟩ := s
  let cycles := cpu.cycles + operation.cycles.toUInt64
  { cpu := { cpu with pc := cpu.pc + operation.length.toUInt16, cycles }
    bus := AddressSpace.sync bus cycles
    ledger
    journal }

/-- Moves HL by a signed byte; nothing is written if the byte is zero. -/
def stepHl (s : System β) (step : Int8) : System β :=
  if step = 0 then s else s.writePair .hl (s.cpu.registers.hl + step.toInt16.toUInt16)

/-- Applies an operation at the program counter. -/
def execute (s : System β) (operation : Operation) : System β :=
  let s := s.markInstruction s.cpu.pc operation.length
  let s := s.advance operation
  let s := s.act operation.action
  s.stepHl operation.hlStep

end Handheld.System
