import Handheld.Cpu.Decode

/-!
# Opcodes

The fields of an opcode say which quarter of the instruction set it belongs to, and what it is
there. Three bits select a byte operand: one of seven registers, or the byte at HL.
-/

set_option autoImplicit false

namespace Handheld

/-- The three bits that select a register as an operand. -/
def Register.code? : Register → Option Nat
  | .b => some 0
  | .c => some 1
  | .d => some 2
  | .e => some 3
  | .h => some 4
  | .l => some 5
  | .a => some 7
  | .f | .spHigh | .spLow => none

variable {β : Type} [AddressSpace β]

/-- Three bits select a register, or the byte at HL. -/
inductive Selects (registers : Registers) (memory : β) : Nat → Place → Prop where
  | register {r : Register} {n : Nat} (code : r.code? = some n) :
    Selects registers memory n (.register r)
  | atHl : Selects registers memory 6 (AddressSpace.resolve memory registers.hl)

variable {registers : Registers} {memory : β} {address : UInt16}

/-- A selector is below eight and names its operand. -/
theorem Selects.byteOperand_eq {n : Nat} {operand : Place}
    (selects : Selects registers memory n operand) :
    n < 8 ∧ Decoder.byteOperand registers memory n = operand := by
  cases selects with
  | @register r n code =>
    cases r <;> simp only [Register.code?, reduceCtorEq, Option.some.injEq] at code
    all_goals
      subst code
      exact ⟨by decide, rfl⟩
  | atHl => exact ⟨by decide, rfl⟩

/-- What the three fields of an opcode are decoded to. -/
def Decoder.ofFields (registers : Registers) (memory : β) (address : UInt16) (x y z : Nat) :
    Decoded :=
  match x with
  | 0 => firstQuarter registers memory address y z
  | 1 => secondQuarter registers memory y z
  | 2 => thirdQuarter registers memory y z
  | _ => fourthQuarter registers memory address y z

/-- An opcode is decoded by its three fields. -/
theorem decode_of_opcode {n : Nat} (opcode : (AddressSpace.read memory address).toNat = n) :
    decode registers memory address =
      Decoder.ofFields registers memory address (n / 64) (n / 8 % 8) (n % 8) := by
  rw [← opcode]
  rfl

/-- Fields that make up the opcode are those by which it is decoded. -/
theorem decode_of_fields (x : Nat) {y z : Nat} (selector : y < 8) (kind : z < 8)
    (opcode : (AddressSpace.read memory address).toNat = 64 * x + 8 * y + z) :
    decode registers memory address = Decoder.ofFields registers memory address x y z := by
  have first : (64 * x + 8 * y + z) / 64 = x := by omega
  have second : (64 * x + 8 * y + z) / 8 % 8 = y := by omega
  have third : (64 * x + 8 * y + z) % 8 = z := by omega
  rw [decode_of_opcode opcode, first, second, third]

end Handheld
