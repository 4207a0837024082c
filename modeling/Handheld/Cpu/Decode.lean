import Handheld.AddressSpace
import Handheld.Cpu.Operation

/-!
# Decoding

An opcode is read as three fields, two bits, three bits and three bits. The upper
field divides the opcodes into four quarters and the others select operands and
kinds within a quarter. Decoding looks at the registers and at the bytes of the
instruction and changes neither; the remarks it makes about the bytes that formed
an address or a word are part of its result.
-/

set_option autoImplicit false

namespace Handheld

/-- A remark that the decoder makes about a byte. -/
inductive Mark where
  /-- The byte at this place was used so. -/
  | place (target : Place) (usage : Usage)
  /-- The byte from which the value at this place stems was used so. -/
  | originOf (target : Place) (usage : Usage)
  deriving DecidableEq, Inhabited

/-- The result of decoding. -/
structure Decoded where
  /-- The instruction. -/
  operation : Operation
  /-- The remarks made on the way. -/
  marks : List Mark := []
  deriving DecidableEq, Inhabited

namespace Decoder

/-- The place of the accumulator. -/
def accumulator : Place := .register .a

/-- An operation without remarks. -/
def plain (action : Action) (length : UInt8) (cycles : UInt32) : Decoded :=
  { operation := { action, length, cycles } }

/-- The remarks that the bytes held by a pair of registers formed an address. -/
def pointerMarks (pair : RegisterPair) : List Mark :=
  [.originOf pair.places.high .pointerHigh, .originOf pair.places.low .pointerLow]

/-- The pair of registers that two bits of most instructions select. -/
def pairOf : Nat → RegisterPair
  | 0 => .bc
  | 1 => .de
  | 2 => .hl
  | _ => .sp

/-- The pair of registers that two bits of a stack instruction select. -/
def stackPairOf : Nat → RegisterPair
  | 0 => .bc
  | 1 => .de
  | 2 => .hl
  | _ => .af

/-- The condition that two bits of a branch select. -/
def conditionOf : Nat → Condition
  | 0 => .nz
  | 1 => .z
  | 2 => .nc
  | _ => .c

/-- The operation of the arithmetic unit that three bits select, on the
accumulator and an operand. -/
def arithmeticOf (index : Nat) (operand : Place) : Action :=
  match index with
  | 0 => .sum8 .add accumulator operand
  | 1 => .sum8 .adc accumulator operand
  | 2 => .sum8 .sub accumulator operand
  | 3 => .sum8 .sbc accumulator operand
  | 4 => .logic8 .and accumulator operand
  | 5 => .logic8 .xor accumulator operand
  | 6 => .logic8 .or accumulator operand
  | _ => .compare8 accumulator operand

/-- The turn or shift that three bits select. -/
def shiftOf : Nat → ShiftKind
  | 0 => .rotate .rlc
  | 1 => .rotate .rrc
  | 2 => .rotate .rl
  | 3 => .rotate .rr
  | 4 => .sla
  | 5 => .sra
  | 6 => .swap
  | _ => .srl

/-- The operation on the accumulator or the carry that three bits select. -/
def accumulatorActionOf : Nat → Action
  | 0 => .rotateAccumulator .rlc accumulator
  | 1 => .rotateAccumulator .rrc accumulator
  | 2 => .rotateAccumulator .rl accumulator
  | 3 => .rotateAccumulator .rr accumulator
  | 4 => .decimalAdjust accumulator
  | 5 => .complement accumulator
  | 6 => .setCarry
  | _ => .invertCarry

variable {β : Type} [AddressSpace β]

/-- The byte operand that three bits select: a register, or with 6 the byte at HL. -/
def byteOperand (registers : Registers) (bus : β) : Nat → Place
  | 0 => .register .b
  | 1 => .register .c
  | 2 => .register .d
  | 3 => .register .e
  | 4 => .register .h
  | 5 => .register .l
  | 6 => AddressSpace.resolve bus registers.hl
  | _ => accumulator

/-- The remarks that come with a byte operand. -/
def operandMarks (index : Nat) : List Mark :=
  if index = 6 then pointerMarks .hl else []

/-- The cost of an instruction that is dearer when one of its operands is the byte at HL. -/
def costAtHl (index : Nat) (otherwise atHl : UInt32) : UInt32 :=
  if index = 6 then atHl else otherwise

/-- The two places that follow an opcode, as a word with its lower byte first. -/
def immediateWord (bus : β) (address : UInt16) : PlacePair where
  high := AddressSpace.resolve bus (address + 2)
  low := AddressSpace.resolve bus (address + 1)

/-- The address that a pair of places holds. -/
def addressAt (bus : β) (pair : PlacePair) : UInt16 :=
  word (AddressSpace.load bus pair.high) (AddressSpace.load bus pair.low)

/-- The remarks that a pair of immediate bytes is an address. -/
def absoluteMarks (pair : PlacePair) : List Mark :=
  [.place pair.high .pointerHigh, .place pair.low .pointerLow]

/-- A device register, by its distance from FF00. -/
def devicePlace (bus : β) (offset : UInt8) : Place :=
  AddressSpace.resolve bus (0xFF00 ||| offset.toUInt16)

/-- Loads between the accumulator and the byte that a pair of registers points at. -/
def indirectLoad (registers : Registers) (bus : β) (index : Nat) : Decoded :=
  match index with
  | 0 => { through .bc with marks := pointerMarks .bc }
  | 1 => { back .bc with marks := pointerMarks .bc }
  | 2 => { through .de with marks := pointerMarks .de }
  | 3 => { back .de with marks := pointerMarks .de }
  | 4 => stepping 1 (through .hl)
  | 5 => stepping 1 (back .hl)
  | 6 => stepping (-1) (through .hl)
  | _ => stepping (-1) (back .hl)
where
  /-- A store of the accumulator through a pair. -/
  through (pair : RegisterPair) : Decoded :=
    plain (.load8 (AddressSpace.resolve bus (registers.pair pair)) accumulator) 1 8
  /-- A load of the accumulator through a pair. -/
  back (pair : RegisterPair) : Decoded :=
    plain (.load8 accumulator (AddressSpace.resolve bus (registers.pair pair))) 1 8
  /-- The same with an adjustment of HL. -/
  stepping (step : Int8) (decoded : Decoded) : Decoded :=
    { decoded with operation := { decoded.operation with hlStep := step } }

/-- The first quarter: words, increments, immediate bytes, relative jumps. -/
def firstQuarter (registers : Registers) (bus : β) (address : UInt16) (y z : Nat) : Decoded :=
  let immediate := immediateWord bus address
  match z with
  | 0 =>
    match y with
    | 0 => plain .nop 1 4
    | 1 =>
      let target := addressAt bus immediate
      let low := AddressSpace.resolve bus target
      let high := AddressSpace.resolve bus (target + 1)
      { operation :=
          { action := .load16 ⟨high, low⟩ RegisterPair.sp.places, length := 3, cycles := 20 }
        marks := absoluteMarks immediate }
    | 2 => plain .stop 1 4
    | 3 => plain (.jumpRelative .always immediate.low) 2 12
    | y => plain (.jumpRelative (conditionOf (y - 4)) immediate.low) 2 8
  | 1 =>
    let pair := pairOf (y / 2)
    if y % 2 = 0 then
      { operation := { action := .load16 pair.places immediate, length := 3, cycles := 12 }
        marks := [.place immediate.low .wordLow, .place immediate.high .wordHigh] }
    else
      plain (.add16 RegisterPair.hl.places pair.places) 1 8
  | 2 => indirectLoad registers bus y
  | 3 =>
    let pair := pairOf (y / 2)
    plain (if y % 2 = 0 then .inc16 pair.places else .dec16 pair.places) 1 8
  | 4 =>
    { plain (.inc8 (byteOperand registers bus y)) 1 (costAtHl y 4 12) with marks := operandMarks y }
  | 5 =>
    { plain (.dec8 (byteOperand registers bus y)) 1 (costAtHl y 4 12) with marks := operandMarks y }
  | 6 =>
    { plain (.load8 (byteOperand registers bus y) immediate.low) 2 (costAtHl y 8 12) with
      marks := operandMarks y }
  | _ => plain (accumulatorActionOf y) 1 4

/-- The second quarter: moves of bytes, and the halt in the place of a move of the
byte at HL to itself. -/
def secondQuarter (registers : Registers) (bus : β) (y z : Nat) : Decoded :=
  if y = 6 ∧ z = 6 then
    plain .halt 1 4
  else
    { plain (.load8 (byteOperand registers bus y) (byteOperand registers bus z)) 1
        (if y = 6 ∨ z = 6 then 8 else 4) with
      marks := operandMarks y ++ operandMarks z }

/-- The third quarter: arithmetic on the accumulator. -/
def thirdQuarter (registers : Registers) (bus : β) (y z : Nat) : Decoded :=
  { plain (arithmeticOf y (byteOperand registers bus z)) 1 (costAtHl z 4 8) with
    marks := operandMarks z }

/-- The instructions that a second byte selects: turns, shifts and single bits. -/
def bitInstruction (registers : Registers) (bus : β) (opcode : UInt8) : Decoded :=
  let x := opcode.toNat / 64
  let y := opcode.toNat / 8 % 8
  let z := opcode.toNat % 8
  let index : Fin 8 := Fin.ofNat 8 y
  let target := byteOperand registers bus z
  let action : Action :=
    match x with
    | 0 => .shift (shiftOf y) target
    | 1 => .testBit index target
    | 2 => .clearBit index target
    | _ => .setBit index target
  { plain action 2 (costAtHl z 8 (if x = 1 then 12 else 16)) with marks := operandMarks z }

/-- The fourth quarter: branches, the stack, absolute addresses and devices. -/
def fourthQuarter (registers : Registers) (bus : β) (address : UInt16) (y z : Nat) : Decoded :=
  let immediate := immediateWord bus address
  match z with
  | 0 =>
    match y with
    | 4 => plain (.load8 (devicePlace bus (AddressSpace.load bus immediate.low)) accumulator) 2 12
    | 5 => plain (.addStackOffset RegisterPair.sp.places immediate.low) 2 16
    | 6 => plain (.load8 accumulator (devicePlace bus (AddressSpace.load bus immediate.low))) 2 12
    | 7 => plain (.loadStackOffset RegisterPair.hl.places immediate.low) 2 12
    | y => plain (.ret (conditionOf y)) 1 8
  | 1 =>
    match y with
    | 1 => plain (.ret .always) 1 16
    | 3 => plain .returnFromInterrupt 1 16
    | 5 => plain (.jump .always RegisterPair.hl.places) 1 4
    | 7 => plain (.load16 RegisterPair.sp.places RegisterPair.hl.places) 1 8
    | y => plain (.pop (stackPairOf (y / 2)).places) 1 12
  | 2 =>
    match y with
    | 4 => plain (.load8 (devicePlace bus registers.c) accumulator) 1 8
    | 5 =>
      { plain (.load8 (AddressSpace.resolve bus (addressAt bus immediate)) accumulator) 3 16 with
        marks := absoluteMarks immediate }
    | 6 => plain (.load8 accumulator (devicePlace bus registers.c)) 1 8
    | 7 =>
      { plain (.load8 accumulator (AddressSpace.resolve bus (addressAt bus immediate))) 3 16 with
        marks := absoluteMarks immediate }
    | y => plain (.jump (conditionOf y) immediate) 3 12
  | 3 =>
    match y with
    | 0 => plain (.jump .always immediate) 3 16
    | 1 => bitInstruction registers bus (AddressSpace.read bus (address + 1))
    | 6 => plain .disableInterrupts 1 4
    | 7 => plain .enableInterrupts 1 4
    | _ => { operation := .illegal }
  | 4 =>
    if y < 4 then plain (.call (conditionOf y) immediate) 3 12 else { operation := .illegal }
  | 5 =>
    match y with
    | 1 => plain (.call .always immediate) 3 24
    | 3 | 5 | 7 => { operation := .illegal }
    | y => plain (.push (stackPairOf (y / 2)).places) 1 16
  | 6 => plain (arithmeticOf y immediate.low) 2 8
  | _ => plain (.restart (UInt8.ofNat (8 * y))) 1 16

end Decoder

/-- Decodes the instruction at an address. -/
def decode {β : Type} [AddressSpace β] (registers : Registers) (bus : β) (address : UInt16) :
    Decoded :=
  let opcode := (AddressSpace.read bus address).toNat
  let y := opcode / 8 % 8
  let z := opcode % 8
  match opcode / 64 with
  | 0 => Decoder.firstQuarter registers bus address y z
  | 1 => Decoder.secondQuarter registers bus y z
  | 2 => Decoder.thirdQuarter registers bus y z
  | _ => Decoder.fourthQuarter registers bus address y z

end Handheld
