import Handheld.Cpu.Registers

/-!
# Arithmetic on bytes and words

What the arithmetic unit computes from its operands, apart from where they come
from and where the result goes. Carries are those of the exact sum or difference
of the operands as natural numbers.
-/

set_option autoImplicit false

namespace Handheld

/-- The number that a carry adds. -/
def carryByte (carry : Bool) : UInt8 := if carry then 1 else 0

/-- The byte additions and subtractions that write their result. -/
inductive SumKind where
  | add | adc | sub | sbc
  deriving DecidableEq, Inhabited

/-- The bitwise operations on bytes. -/
inductive LogicKind where
  | and | xor | or
  deriving DecidableEq, Inhabited

/-- The ways to turn a byte by one bit. -/
inductive RotateKind where
  | rlc | rrc | rl | rr
  deriving DecidableEq, Inhabited

/-- The ways to turn or shift a byte. -/
inductive ShiftKind where
  | rotate (kind : RotateKind)
  | sla | sra | swap | srl
  deriving DecidableEq, Inhabited

/-- A result byte and the flags that come with it. -/
structure ByteResult where
  /-- The result. -/
  value : UInt8
  /-- The flags after the operation. -/
  flags : Flags
  deriving DecidableEq, Inhabited

/-- The sum of two bytes and a carry. -/
def addBytes (x y : UInt8) (carry : Bool) : ByteResult :=
  let value := x + y + carryByte carry
  { value
    flags :=
      { z := value == 0
        n := false
        h := x.toNat % 16 + y.toNat % 16 + (carryByte carry).toNat > 0x0F
        c := x.toNat + y.toNat + (carryByte carry).toNat > 0xFF } }

/-- The difference of two bytes and a borrow. -/
def subBytes (x y : UInt8) (borrow : Bool) : ByteResult :=
  let value := x - y - carryByte borrow
  { value
    flags :=
      { z := value == 0
        n := true
        h := x.toNat % 16 < y.toNat % 16 + (carryByte borrow).toNat
        c := x.toNat < y.toNat + (carryByte borrow).toNat } }

/-- A byte addition or subtraction under the carry flag `carry`. -/
def SumKind.apply (kind : SumKind) (x y : UInt8) (carry : Bool) : ByteResult :=
  match kind with
  | .add => addBytes x y false
  | .adc => addBytes x y carry
  | .sub => subBytes x y false
  | .sbc => subBytes x y carry

/-- A bitwise operation; the half carry tells a conjunction from the others. -/
def LogicKind.apply (kind : LogicKind) (x y : UInt8) : ByteResult :=
  let value := match kind with
    | .and => x &&& y
    | .xor => x ^^^ y
    | .or => x ||| y
  { value, flags := { z := value == 0, h := kind == .and } }

/-- The result of turning a byte and the bit that falls out. -/
def RotateKind.apply (kind : RotateKind) (value : UInt8) (carry : Bool) : UInt8 × Bool :=
  match kind with
  | .rlc => ((value <<< 1) ||| (value >>> 7), value &&& 0x80 != 0)
  | .rrc => ((value >>> 1) ||| (value <<< 7), value &&& 0x01 != 0)
  | .rl => ((value <<< 1) ||| carryByte carry, value &&& 0x80 != 0)
  | .rr => ((value >>> 1) ||| (carryByte carry <<< 7), value &&& 0x01 != 0)

/-- The result of turning or shifting a byte and the bit that falls out; a swap
of the two halves loses no bit. -/
def ShiftKind.apply (kind : ShiftKind) (value : UInt8) (carry : Bool) : UInt8 × Bool :=
  match kind with
  | .rotate kind => kind.apply value carry
  | .sla => (value <<< 1, value &&& 0x80 != 0)
  | .sra => ((value >>> 1) ||| (value &&& 0x80), value &&& 0x01 != 0)
  | .swap => ((value <<< 4) ||| (value >>> 4), false)
  | .srl => (value >>> 1, value &&& 0x01 != 0)

/-- The packed decimal form of a byte that an addition or subtraction of packed
decimal bytes left behind with the flags `flags`. -/
def decimalAdjust (value : UInt8) (flags : Flags) : ByteResult :=
  let (result, carry) :=
    if flags.n then
      let tens := if flags.c then value - 0x60 else value
      let ones := if flags.h then tens - 0x06 else tens
      (ones, flags.c)
    else
      let carry := flags.c || value > 0x99
      let tens := if carry then value + 0x60 else value
      let ones := if flags.h || tens &&& 0x0F > 0x09 then tens + 0x06 else tens
      (ones, carry)
  { value := result, flags := { flags with z := result == 0, h := false, c := carry } }

/-- The sum of two words with the flags of a word addition; the zero flag stays. -/
def addWords (x y : UInt16) (flags : Flags) : UInt16 × Flags :=
  (x + y,
    { flags with
      n := false
      h := x.toNat % 0x1000 + y.toNat % 0x1000 > 0x0FFF
      c := x.toNat + y.toNat > 0xFFFF })

/-- A byte as a word with the same value in two's complement. -/
def signExtend (value : UInt8) : UInt16 := value.toInt8.toInt16.toUInt16

/-- A word moved by a signed byte. The flags are the carries out of the unsigned
addition of the lower byte and the raw offset. -/
def offsetWord (x : UInt16) (offset : UInt8) : UInt16 × Flags :=
  (x + signExtend offset,
    { h := x.toNat % 0x10 + offset.toNat % 0x10 > 0x0F
      c := x.toNat % 0x100 + offset.toNat > 0xFF })

end Handheld
