import Handheld.Place
import Handheld.Word

/-!
# The register file

The processor keeps four condition flags and nine bytes. The flags read as a
byte of their own, register F, whose lower half is always zero; a write to F
keeps the four flag bits only.

A `Cpu` adds the program counter, the cycle counter and the few switches that
decide how the next step begins.
-/

set_option autoImplicit false

namespace Handheld

/-- The condition flags. -/
structure Flags where
  /-- Zero. -/
  z : Bool := false
  /-- Subtraction. -/
  n : Bool := false
  /-- Half carry, out of bit 3. -/
  h : Bool := false
  /-- Carry, out of bit 7. -/
  c : Bool := false
  deriving DecidableEq, Inhabited

namespace Flags

/-- The flags as the byte that register F shows. -/
def toByte (flags : Flags) : UInt8 :=
  (if flags.z then 0x80 else 0) ||| (if flags.n then 0x40 else 0) |||
    (if flags.h then 0x20 else 0) ||| (if flags.c then 0x10 else 0)

/-- The flags that a byte written to register F sets. -/
def ofByte (value : UInt8) : Flags where
  z := value &&& 0x80 != 0
  n := value &&& 0x40 != 0
  h := value &&& 0x20 != 0
  c := value &&& 0x10 != 0

set_option maxRecDepth 4000 in
/-- A byte written to F reads back with its lower half cleared. -/
theorem toByte_ofByte (value : UInt8) : (ofByte value).toByte = value &&& 0xF0 := by
  have all : ∀ v : Fin 256, (ofByte (UInt8.ofNat v)).toByte = UInt8.ofNat v &&& 0xF0 := by
    decide
  simpa using all ⟨value.toNat, value.toNat_lt⟩

/-- Unpacking a packed flag register gives the flags back. -/
@[simp] theorem ofByte_toByte (flags : Flags) : ofByte flags.toByte = flags := by
  rcases flags with ⟨_ | _, _ | _, _ | _, _ | _⟩ <;> rfl

end Flags

/-- The contents of the registers. -/
structure Registers where
  /-- The accumulator. -/
  a : UInt8 := 0
  /-- Register B. -/
  b : UInt8 := 0
  /-- Register C. -/
  c : UInt8 := 0
  /-- Register D. -/
  d : UInt8 := 0
  /-- Register E. -/
  e : UInt8 := 0
  /-- Register H. -/
  h : UInt8 := 0
  /-- Register L. -/
  l : UInt8 := 0
  /-- The upper byte of the stack pointer. -/
  spHigh : UInt8 := 0
  /-- The lower byte of the stack pointer. -/
  spLow : UInt8 := 0
  /-- The condition flags. -/
  flags : Flags := {}
  deriving DecidableEq, Inhabited

namespace Registers

/-- The byte a register shows. -/
def get (regs : Registers) : Register → UInt8
  | .a => regs.a
  | .f => regs.flags.toByte
  | .b => regs.b
  | .c => regs.c
  | .d => regs.d
  | .e => regs.e
  | .h => regs.h
  | .l => regs.l
  | .spHigh => regs.spHigh
  | .spLow => regs.spLow

/-- Writes a byte to a register. -/
def set (regs : Registers) (r : Register) (value : UInt8) : Registers :=
  match r with
  | .a => { regs with a := value }
  | .f => { regs with flags := .ofByte value }
  | .b => { regs with b := value }
  | .c => { regs with c := value }
  | .d => { regs with d := value }
  | .e => { regs with e := value }
  | .h => { regs with h := value }
  | .l => { regs with l := value }
  | .spHigh => { regs with spHigh := value }
  | .spLow => { regs with spLow := value }

/-- A written register shows the byte written, F only its upper half; the others
show what they showed. -/
theorem get_set (regs : Registers) (r q : Register) (value : UInt8) :
    (regs.set r value).get q =
      if q = r then (if r = .f then value &&& 0xF0 else value) else regs.get q := by
  cases r <;> cases q <;> simp [get, set, Flags.toByte_ofByte]

/-- The accumulator and the flags as one word. -/
def af (regs : Registers) : UInt16 := word regs.a regs.flags.toByte

/-- Registers B and C as one word. -/
def bc (regs : Registers) : UInt16 := word regs.b regs.c

/-- Registers D and E as one word. -/
def de (regs : Registers) : UInt16 := word regs.d regs.e

/-- Registers H and L as one word. -/
def hl (regs : Registers) : UInt16 := word regs.h regs.l

/-- The stack pointer. -/
def sp (regs : Registers) : UInt16 := word regs.spHigh regs.spLow

end Registers

/-- A pair of registers that an instruction can name as one word. -/
inductive RegisterPair where
  | af | bc | de | hl | sp
  deriving DecidableEq, Inhabited

namespace RegisterPair

/-- The register that holds the upper byte. -/
def high : RegisterPair → Register
  | .af => .a
  | .bc => .b
  | .de => .d
  | .hl => .h
  | .sp => .spHigh

/-- The register that holds the lower byte. -/
def low : RegisterPair → Register
  | .af => .f
  | .bc => .c
  | .de => .e
  | .hl => .l
  | .sp => .spLow

/-- The two places of a pair. -/
def places (pair : RegisterPair) : PlacePair :=
  ⟨.register pair.high, .register pair.low⟩

end RegisterPair

/-- The word that a pair of registers holds. -/
def Registers.pair (regs : Registers) (pair : RegisterPair) : UInt16 :=
  word (regs.get pair.high) (regs.get pair.low)

/-- Writes a word to a pair of registers. -/
def Registers.setPair (regs : Registers) (pair : RegisterPair) (value : UInt16) : Registers :=
  (regs.set pair.high (highByte value)).set pair.low (lowByte value)

/-- The state of the processor. -/
structure Cpu where
  /-- The register file. -/
  registers : Registers := {}
  /-- The program counter. -/
  pc : UInt16 := 0
  /-- Cycles since power-on. -/
  cycles : UInt64 := 0
  /-- The speed factor, 1 or 2. -/
  speed : UInt8 := 1
  /-- Whether interrupts are dispatched. -/
  interruptsEnabled : Bool := false
  /-- Whether the processor waits for an interrupt. -/
  halted : Bool := false
  /-- Whether the processor runs in color mode. -/
  color : Bool := false
  deriving DecidableEq, Inhabited

namespace Cpu

/-- The registers as a finished boot program leaves them. The accumulator tells
the program which kind of machine it runs on. -/
def postBoot (cpu : Cpu) : Cpu :=
  { cpu with
    registers :=
      { a := if cpu.color then 0x11 else 0x01, flags := .ofByte 0xB0
        b := 0x00, c := 0x13, d := 0x00, e := 0xD8, h := 0x01, l := 0x4D
        spHigh := 0xFF, spLow := 0xFE }
    pc := 0x0100 }

end Cpu

end Handheld
