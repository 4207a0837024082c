import Handheld.Cpu.Arithmetic

/-!
# Operations

A decoded instruction is an `Operation`: an action on places together with the
number of bytes it takes, its cost, and the adjustment of HL that two addressing
forms bring with them. Operands are places that were resolved when the instruction
was decoded, so an operation can be listed, compared and applied without another
look at its bytes.
-/

set_option autoImplicit false

namespace Handheld

/-- The condition under which a branch is taken. -/
inductive Condition where
  | always | z | c | nz | nc
  deriving DecidableEq, Inhabited

namespace Condition

/-- Whether a condition is met under the given flags. -/
def holds (flags : Flags) : Condition → Bool
  | .always => true
  | .z => flags.z
  | .c => flags.c
  | .nz => !flags.z
  | .nc => !flags.c

/-- The name of a condition. -/
def name : Condition → String
  | .always => "Always"
  | .z => "Z"
  | .c => "C"
  | .nz => "NZ"
  | .nc => "NC"

end Condition

/-- What an instruction does. -/
inductive Action where
  /-- Nothing. -/
  | nop
  /-- Switches the speed if a switch is armed. -/
  | stop
  /-- Waits for an interrupt. -/
  | halt
  /-- Forbids interrupts. -/
  | disableInterrupts
  /-- Allows interrupts. -/
  | enableInterrupts
  /-- Moves a byte. -/
  | load8 (destination source : Place)
  /-- Moves a word, its upper byte first. -/
  | load16 (destination source : PlacePair)
  /-- Puts the stack pointer moved by a signed byte into another pair. -/
  | loadStackOffset (destination : PlacePair) (offset : Place)
  /-- Puts a word on the stack. -/
  | push (source : PlacePair)
  /-- Takes a word from the stack. -/
  | pop (destination : PlacePair)
  /-- Adds one to a byte. -/
  | inc8 (target : Place)
  /-- Takes one from a byte. -/
  | dec8 (target : Place)
  /-- Adds one to a word. -/
  | inc16 (target : PlacePair)
  /-- Takes one from a word. -/
  | dec16 (target : PlacePair)
  /-- Adds or subtracts a byte. -/
  | sum8 (kind : SumKind) (target operand : Place)
  /-- Combines two bytes bit by bit. -/
  | logic8 (kind : LogicKind) (target operand : Place)
  /-- Compares two bytes. -/
  | compare8 (target operand : Place)
  /-- Adds a word. -/
  | add16 (target operand : PlacePair)
  /-- Moves the stack pointer by a signed byte. -/
  | addStackOffset (target : PlacePair) (offset : Place)
  /-- Turns the accumulator. -/
  | rotateAccumulator (kind : RotateKind) (target : Place)
  /-- Brings the accumulator into packed decimal form. -/
  | decimalAdjust (target : Place)
  /-- Inverts the accumulator. -/
  | complement (target : Place)
  /-- Sets the carry. -/
  | setCarry
  /-- Inverts the carry. -/
  | invertCarry
  /-- Jumps by a signed byte. -/
  | jumpRelative (condition : Condition) (offset : Place)
  /-- Jumps to a word. -/
  | jump (condition : Condition) (target : PlacePair)
  /-- Calls the routine at a word. -/
  | call (condition : Condition) (target : PlacePair)
  /-- Returns to the address on the stack. -/
  | ret (condition : Condition)
  /-- Returns and allows interrupts. -/
  | returnFromInterrupt
  /-- Calls the routine at a fixed address. -/
  | restart (vector : UInt8)
  /-- Turns or shifts a byte. -/
  | shift (kind : ShiftKind) (target : Place)
  /-- Tests a bit. -/
  | testBit (index : Fin 8) (target : Place)
  /-- Clears a bit. -/
  | clearBit (index : Fin 8) (target : Place)
  /-- Sets a bit. -/
  | setBit (index : Fin 8) (target : Place)
  /-- The byte encodes no instruction. -/
  | illegal
  deriving DecidableEq, Inhabited

/-- A decoded instruction. -/
structure Operation where
  /-- What it does. -/
  action : Action
  /-- How many bytes it takes. -/
  length : UInt8
  /-- What it costs; for a conditional branch, when it is not taken. -/
  cycles : UInt32
  /-- By how much HL moves after the action. -/
  hlStep : Int8 := 0
  deriving DecidableEq, Inhabited

/-- The operands of an action in the four slots of a listing. -/
structure Operands where
  /-- The upper byte of the destination. -/
  destinationHigh : Option Place := none
  /-- The destination, or its lower byte. -/
  destinationLow : Option Place := none
  /-- The upper byte of the source. -/
  sourceHigh : Option Place := none
  /-- The source, or its lower byte. -/
  sourceLow : Option Place := none
  deriving DecidableEq, Inhabited

namespace Action

/-- The operands of an action. A target that is read and written is listed as
destination, the target of a branch as source. -/
def operands : Action → Operands
  | .load8 destination source =>
    { destinationLow := some destination, sourceLow := some source }
  | .load16 destination source | .add16 destination source =>
    { destinationHigh := some destination.high, destinationLow := some destination.low
      sourceHigh := some source.high, sourceLow := some source.low }
  | .loadStackOffset destination offset | .addStackOffset destination offset =>
    { destinationHigh := some destination.high, destinationLow := some destination.low
      sourceLow := some offset }
  | .push source | .jump _ source | .call _ source =>
    { sourceHigh := some source.high, sourceLow := some source.low }
  | .pop destination | .inc16 destination | .dec16 destination =>
    { destinationHigh := some destination.high, destinationLow := some destination.low }
  | .sum8 _ target operand | .logic8 _ target operand | .compare8 target operand =>
    { destinationLow := some target, sourceLow := some operand }
  | .inc8 target | .dec8 target | .rotateAccumulator _ target | .decimalAdjust target
  | .complement target | .shift _ target | .testBit _ target | .clearBit _ target
  | .setBit _ target =>
    { destinationLow := some target }
  | .jumpRelative _ offset => { sourceLow := some offset }
  | .nop | .stop | .halt | .disableInterrupts | .enableInterrupts | .setCarry | .invertCarry
  | .ret _ | .returnFromInterrupt | .restart _ | .illegal => {}

/-- The number that is part of an action: a bit index or a restart address. -/
def number : Action → Nat
  | .restart vector => vector.toNat
  | .testBit index _ | .clearBit index _ | .setBit index _ => index
  | _ => 0

/-- The name under which a listing shows an action. -/
def name : Action → String
  | .nop => "Nop"
  | .stop => "Stop"
  | .halt => "Halt"
  | .disableInterrupts => "Di"
  | .enableInterrupts => "Ei"
  | .load8 .. => "Ld8"
  | .load16 .. => "Ld16"
  | .loadStackOffset .. => "LdHlSp"
  | .push _ => "Push16"
  | .pop _ => "Pop16"
  | .inc8 _ => "Inc8"
  | .dec8 _ => "Dec8"
  | .inc16 _ => "Inc16"
  | .dec16 _ => "Dec16"
  | .sum8 .add _ _ => "Add8"
  | .sum8 .adc _ _ => "Adc8"
  | .sum8 .sub _ _ => "Sub8"
  | .sum8 .sbc _ _ => "Sbc8"
  | .logic8 .and _ _ => "And8"
  | .logic8 .xor _ _ => "Xor8"
  | .logic8 .or _ _ => "Or8"
  | .compare8 .. => "Cp8"
  | .add16 .. => "Add16"
  | .addStackOffset .. => "AddSp"
  | .rotateAccumulator .rlc _ => "Rlca"
  | .rotateAccumulator .rrc _ => "Rrca"
  | .rotateAccumulator .rl _ => "Rla"
  | .rotateAccumulator .rr _ => "Rra"
  | .decimalAdjust _ => "Daa"
  | .complement _ => "Cpl"
  | .setCarry => "Scf"
  | .invertCarry => "Ccf"
  | .jumpRelative condition _ => "Jr(" ++ condition.name ++ ")"
  | .jump condition _ => "Jp(" ++ condition.name ++ ")"
  | .call condition _ => "Call(" ++ condition.name ++ ")"
  | .ret condition => "Ret(" ++ condition.name ++ ")"
  | .returnFromInterrupt => "Reti"
  | .restart _ => "Rst"
  | .shift (.rotate .rlc) _ => "Rlc"
  | .shift (.rotate .rrc) _ => "Rrc"
  | .shift (.rotate .rl) _ => "Rl"
  | .shift (.rotate .rr) _ => "Rr"
  | .shift .sla _ => "Sla"
  | .shift .sra _ => "Sra"
  | .shift .swap _ => "Swap"
  | .shift .srl _ => "Srl"
  | .testBit .. => "Bit"
  | .clearBit .. => "Res"
  | .setBit .. => "Set"
  | .illegal => "Illegal"

end Action

namespace Operation

/-- Whether an operation stands for a byte that encodes no instruction. -/
def isIllegal (operation : Operation) : Bool := operation.action == .illegal

/-- The operation of a byte that encodes no instruction. -/
def illegal : Operation := { action := .illegal, length := 1, cycles := 0 }

end Operation

end Handheld
