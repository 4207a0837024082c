import Handheld.Proofs.Decimal
import Handheld.Proofs.Opcodes
import Handheld.Proofs.PlainMemory

/-!
# Byte arithmetic

The arithmetic unit works on bytes, and each of its operations stands for one on numbers:
`ByteOperation.exact` is the number that would come out if bytes had no end. The result is that
number modulo 256. The half carry and the carry tell whether the number leaves the range of half
a byte, when the operands are cut to their lower halves, or that of a byte. A sum leaves it at
the top and a difference at the bottom, which is a borrow; a conjunction sets the half carry in
any case.

The operations on the accumulator are found by their opcodes alone (`ByteOperation.EncodedAs`),
and so are the steps by one (`StepEncoded`). The rest is about what is written: the accumulator
only if the result differs from what it holds, and no other place.
-/

set_option autoImplicit false

namespace Handheld

open Decoder (accumulator)

/-! ## Operations on numbers -/

/-- The operations on the accumulator and another byte. -/
inductive ByteOperation where
  | add | adc | sub | sbc | and | xor | or | compare
  deriving DecidableEq

/-- A number is not one of `0 ..< bound`. -/
def Overflows (bound number : Int) : Prop := number < 0 ∨ bound ≤ number

namespace ByteOperation

/-- What the operation is on numbers. -/
def exact (operation : ByteOperation) (x y carry : Nat) : Int :=
  match operation with
  | .add => x + y
  | .adc => x + y + carry
  | .sub | .compare => x - y
  | .sbc => x - y - carry
  | .and => (x &&& y : Nat)
  | .xor => (x ^^^ y : Nat)
  | .or => (x ||| y : Nat)

/-- Whether the operation is a subtraction. -/
def subtracts : ByteOperation → Bool
  | .sub | .sbc | .compare => true
  | .add | .adc | .and | .xor | .or => false

/-- Whether the operation goes bit by bit, so that nothing is carried. -/
def isLogic : ByteOperation → Bool
  | .and | .xor | .or => true
  | .add | .adc | .sub | .sbc | .compare => false

/-- The three bits that select the operation. -/
def code : ByteOperation → Nat
  | .add => 0
  | .adc => 1
  | .sub => 2
  | .sbc => 3
  | .and => 4
  | .xor => 5
  | .or => 6
  | .compare => 7

/-- The selector of an operation is below eight. -/
theorem code_lt (operation : ByteOperation) : operation.code < 8 := by
  cases operation <;> decide

/-- A result, and all flags but the carry, are those of an operation on numbers. -/
structure Computes (operation : ByteOperation) (x y : UInt8) (carry : Bool) (result : UInt8)
    (flags : Flags) : Prop where
  value : (result.toNat : Int) = operation.exact x.toNat y.toNat carry.toNat % 256
  z : flags.z = true ↔ result = 0
  n : flags.n = operation.subtracts
  h : flags.h = true ↔ operation = .and ∨ operation.isLogic = false ∧
    Overflows 16 (operation.exact (x.toNat % 16) (y.toNat % 16) carry.toNat)

/-- The carry is that of an operation on numbers. -/
def Carries (operation : ByteOperation) (x y : UInt8) (carry : Bool) (flags : Flags) : Prop :=
  flags.c = true ↔ operation.isLogic = false ∧
    Overflows 256 (operation.exact x.toNat y.toNat carry.toNat)

/-! ## The arithmetic unit -/

/-- What the arithmetic unit makes of an operation. -/
def apply (operation : ByteOperation) (x y : UInt8) (carry : Bool) : ByteResult :=
  match operation with
  | .add => SumKind.add.apply x y carry
  | .adc => SumKind.adc.apply x y carry
  | .sub => SumKind.sub.apply x y carry
  | .sbc => SumKind.sbc.apply x y carry
  | .and => LogicKind.and.apply x y
  | .xor => LogicKind.xor.apply x y
  | .or => LogicKind.or.apply x y
  | .compare => subBytes x y false

/-- A sum or difference is no conjunction. -/
theorem ne_and_of_sum {operation : ByteOperation} (sum : operation.isLogic = false) :
    operation ≠ .and := by
  rintro rfl
  contradiction

section
variable {operation : ByteOperation} {carry taken : Bool}

/-- An addition is exact, of which a carry is part or not. -/
theorem computes_addBytes (sum : operation.isLogic = false) (kind : operation.subtracts = false)
    (adds : ∀ x y : Nat, operation.exact x y carry.toNat = x + y + taken.toNat) (x y : UInt8) :
    let result := addBytes x y taken
    Computes operation x y carry result.value result.flags ∧
      Carries operation x y carry result.flags := by
  intro result
  obtain ⟨value, half, full⟩ := addBytes_exact x y taken
  unfold Carries
  refine ⟨⟨?_, beq_iff_eq, kind.symm, ?_⟩, ?_⟩
  · rw [adds, value]
    omega
  · rw [adds, half, decide_eq_true_iff, or_iff_right (ne_and_of_sum sum), and_iff_right sum]
    unfold Overflows
    omega
  · rw [adds, full, decide_eq_true_iff, and_iff_right sum]
    unfold Overflows
    omega

/-- A subtraction is exact, of which a borrow is part or not. -/
theorem computes_subBytes (sum : operation.isLogic = false) (kind : operation.subtracts = true)
    (subtracts : ∀ x y : Nat, operation.exact x y carry.toNat = x - y - taken.toNat)
    (x y : UInt8) :
    let result := subBytes x y taken
    Computes operation x y carry result.value result.flags ∧
      Carries operation x y carry result.flags := by
  intro result
  obtain ⟨value, half, full⟩ := subBytes_exact x y taken
  change x.toNat = (result.value.toNat + _ + _) % _ at value
  have one := Bool.toNat_le taken
  have small := result.value.toNat_lt
  have before := x.toNat_lt
  unfold Carries
  refine ⟨⟨?_, beq_iff_eq, kind.symm, ?_⟩, ?_⟩
  · rw [subtracts]
    omega
  · rw [subtracts, half, decide_eq_true_iff, or_iff_right (ne_and_of_sum sum), and_iff_right sum]
    unfold Overflows
    omega
  · rw [subtracts, full, decide_eq_true_iff, and_iff_right sum]
    unfold Overflows
    omega

end

/-- A logical operation computes its exact result, with its flags. -/
theorem computes_logic {kind : LogicKind} {operation : ByteOperation} {x y : UInt8} {carry : Bool}
    (logic : operation.isLogic = true) (isAnd : operation = .and ↔ kind = .and)
    (kindless : operation.subtracts = false)
    (exact : ((kind.apply x y).value.toNat : Int) =
      operation.exact x.toNat y.toNat carry.toNat) :
    let result := kind.apply x y
    Computes operation x y carry result.value result.flags ∧
      Carries operation x y carry result.flags := by
  intro result
  have small := result.value.toNat_lt
  have carried : ¬ (operation.isLogic = false) := by
    rw [logic]
    decide
  refine ⟨⟨?_, beq_iff_eq, kindless.symm, ?_⟩, ?_⟩
  · rw [← exact]
    show (result.value.toNat : Int) = result.value.toNat % 256
    omega
  · rw [or_iff_left (fun sum => carried sum.1), isAnd]
    exact beq_iff_eq
  · exact ⟨nofun, fun sum => absurd sum.1 carried⟩

/-- The arithmetic unit is exact. -/
theorem computes_apply (operation : ByteOperation) (x y : UInt8) (carry : Bool) :
    let result := operation.apply x y carry
    Computes operation x y carry result.value result.flags ∧
      Carries operation x y carry result.flags := by
  have adds (x y : Nat) : exact .add x y carry.toNat = x + y + false.toNat := by simp [exact]
  have subtracts (x y : Nat) : exact .sub x y carry.toNat = x - y - false.toNat := by simp [exact]
  cases operation with
  | add => exact computes_addBytes rfl rfl adds x y
  | adc => exact computes_addBytes rfl rfl (fun _ _ => rfl) x y
  | sub => exact computes_subBytes rfl rfl subtracts x y
  | compare => exact @computes_subBytes .compare _ _ rfl rfl subtracts x y
  | sbc => exact computes_subBytes rfl rfl (fun _ _ => rfl) x y
  | and => exact computes_logic rfl (by decide) rfl (congrArg _ (UInt8.toNat_and x y))
  | xor => exact computes_logic rfl (by decide) rfl (congrArg _ (UInt8.toNat_xor x y))
  | or => exact computes_logic rfl (by decide) rfl (congrArg _ (UInt8.toNat_or x y))

/-- Half of a byte is told by its number. -/
theorem low_eq_iff (x : UInt8) {low : UInt8} :
    (x &&& 0x0F == low) = true ↔ x.toNat % 16 = low.toNat := by
  rw [beq_iff_eq, ← UInt8.toNat_inj, toNat_and_low x 4 rfl]
  rfl

/-- A step up is an addition of one. -/
theorem computes_increment (x : UInt8) (flags : Flags) :
    Computes .add x 1 false (x + 1)
      { flags with z := x + 1 == 0, n := false, h := x &&& 0x0F == 0x0F } := by
  have one : (1 : UInt8).toNat = 1 := rfl
  have low : (0x0F : UInt8).toNat = 15 := rfl
  have sum : isLogic .add = false := rfl
  have adds (x y : Nat) : exact .add x y false.toNat = x + y := rfl
  refine ⟨?_, beq_iff_eq, rfl, ?_⟩
  · rw [UInt8.toNat_add, adds]
    omega
  · rw [low_eq_iff, adds, or_iff_right (by decide), and_iff_right sum]
    unfold Overflows
    omega

/-- A step down is a subtraction of one. -/
theorem computes_decrement (x : UInt8) (flags : Flags) :
    Computes .sub x 1 false (x - 1)
      { flags with z := x - 1 == 0, n := true, h := x &&& 0x0F == 0x00 } := by
  have one : (1 : UInt8).toNat = 1 := rfl
  have low : (0x00 : UInt8).toNat = 0 := rfl
  have sum : isLogic .sub = false := rfl
  have subtracts (x y : Nat) : exact .sub x y false.toNat = x - y := rfl
  refine ⟨?_, beq_iff_eq, rfl, ?_⟩
  · rw [UInt8.toNat_sub, subtracts]
    omega
  · rw [low_eq_iff, subtracts, or_iff_right (by decide), and_iff_right sum]
    unfold Overflows
    omega

end ByteOperation

/-! ## Opcodes -/

section
variable {β : Type} [AddressSpace β]

/-- The bytes at an address encode an operation on the accumulator and a byte. -/
inductive ByteOperation.EncodedAs (registers : Registers) (memory : β) (address : UInt16)
    (operation : ByteOperation) : Place → Prop where
  | selected {n : Nat} {operand : Place} (selects : Selects registers memory n operand)
    (opcode : (AddressSpace.read memory address).toNat = 0x80 + 8 * operation.code + n) :
    EncodedAs registers memory address operation operand
  | immediate
    (opcode : (AddressSpace.read memory address).toNat = 0xC6 + 8 * operation.code) :
    EncodedAs registers memory address operation (AddressSpace.resolve memory (address + 1))

/-- The byte at an address encodes a step of a byte by one, up or down. -/
inductive StepEncoded (registers : Registers) (memory : β) (address : UInt16) (up : Bool) :
    Place → Prop where
  | selected {n : Nat} {target : Place} (selects : Selects registers memory n target)
    (opcode : (AddressSpace.read memory address).toNat = (if up then 0x04 else 0x05) + 8 * n) :
    StepEncoded registers memory address up target

variable {registers : Registers} {memory : β} {address : UInt16}

/-- A byte operation is decoded from its opcode. -/
theorem ByteOperation.EncodedAs.decode {operation : ByteOperation} {operand : Place}
    (encoded : operation.EncodedAs registers memory address operand) :
    let decoded := (Handheld.decode registers memory address).operation
    decoded.action = Decoder.arithmeticOf operation.code operand ∧ decoded.hlStep = 0 := by
  have small := operation.code_lt
  cases encoded with
  | selected selects opcode =>
    obtain ⟨inside, rfl⟩ := selects.byteOperand_eq
    rw [decode_of_fields 2 small inside (by omega)]
    exact ⟨rfl, rfl⟩
  | immediate opcode =>
    rw [decode_of_fields 3 small (by decide : 6 < 8) (by omega)]
    exact ⟨rfl, rfl⟩

/-- Counting a byte up or down is decoded from its opcode. -/
theorem StepEncoded.decode {up : Bool} {target : Place}
    (encoded : StepEncoded registers memory address up target) :
    let decoded := (Handheld.decode registers memory address).operation
    decoded.action = (if up then .inc8 target else .dec8 target) ∧ decoded.hlStep = 0 := by
  cases encoded with
  | selected selects opcode =>
    obtain ⟨inside, rfl⟩ := selects.byteOperand_eq
    cases up with
    | true =>
      rw [if_pos rfl] at opcode
      rw [decode_of_fields 0 inside (by decide : 4 < 8) (by omega)]
      exact ⟨rfl, rfl⟩
    | false =>
      rw [if_neg nofun] at opcode
      rw [decode_of_fields 0 inside (by decide : 5 < 8) (by omega)]
      exact ⟨rfl, rfl⟩

/-- No operand is the register of the flags. -/
theorem Selects.ne_flags [AddressSpace.Lawful β] {n : Nat} {target : Place}
    (selects : Selects registers memory n target) : target ≠ .register .f := by
  cases selects with
  | register code =>
    rintro ⟨⟩
    cases code
  | atHl => exact AddressSpace.Lawful.resolve_ne_register memory _ _

end

/-! ## Execution -/

namespace System

variable {β : Type} [AddressSpace β] (s : System β)

/-- The eight operations set the flags and then write the accumulator; a comparison writes what
the accumulator holds, which is nothing. -/
theorem act_arithmeticOf (operation : ByteOperation) (operand : Place) :
    let x := s.load accumulator
    let result := operation.apply x (s.load operand) s.flags.c
    s.act (Decoder.arithmeticOf operation.code operand) =
      (s.setFlags result.flags).writeResult accumulator x
        (if operation = .compare then x else result.value) := by
  intro x result
  cases operation with
  | compare =>
    unfold writeResult
    rw [if_pos rfl, if_neg (not_not.mpr rfl)]
    rfl
  | _ => rfl

/-- A result is written to the accumulator, or it is there already. -/
theorem writeResult_changes (result : UInt8) :
    let t := s.writeResult accumulator (s.load accumulator) result
    t.bus = s.bus ∧ AgreeOutside [accumulator] s t ∧
      t.origin? accumulator =
        if result = s.load accumulator then s.origin? accumulator else none := by
  intro t
  unfold t writeResult
  by_cases same : result = s.load accumulator
  · rw [if_neg (not_not.mpr same), if_pos same]
    exact ⟨rfl, fun _ _ => rfl, rfl⟩
  · rw [if_pos same, if_neg same]
    refine ⟨by simp [accumulator], ?_, ?_⟩
    · intro q other
      unfold accumulator at other ⊢
      rw [byte?_write_register, if_neg (by simpa using other)]
    · unfold accumulator
      rw [origin?_write_register, if_pos rfl]

/-- An operation was performed on the accumulator and a byte `y`. -/
structure Calculated (operation : ByteOperation) (y : UInt8) (s t : System β) : Prop where
  result : ∃ result, operation.Computes (s.load accumulator) y s.flags.c result t.flags ∧
    t.load accumulator = if operation = .compare then s.load accumulator else result
  carry : operation.Carries (s.load accumulator) y s.flags.c t.flags
  elsewhere : AgreeOutside [accumulator, .register .f] s t
  bus : ∃ cycles, t.bus = AddressSpace.sync s.bus cycles
  origin : t.origin? accumulator =
    if t.load accumulator = s.load accumulator then s.origin? accumulator else none

/-- One was added to the byte at a place, or taken from it. -/
structure Stepped (operation : ByteOperation) (target : Place) (s t : System β) : Prop where
  result : ∃ x result, s.byte? target = some x ∧ operation.Computes x 1 false result t.flags ∧
    t.byte? target = some result
  carry : t.flags.c = s.flags.c
  elsewhere : AgreeOutside [target, .register .f] s t

section
variable [AddressSpace.Lawful β] {registers : Registers} {memory : β} {address : UInt16}

/-- An instruction of the byte operations calculates what it says. -/
theorem calculated_execute {operation : ByteOperation} {operand : Place}
    (encoded : operation.EncodedAs registers memory address operand) :
    let decoded := (Handheld.decode registers memory address).operation
    Calculated operation ((s.ready decoded).load operand) s (s.execute decoded) := by
  intro decoded
  obtain ⟨action, plain⟩ := encoded.decode
  let y := (s.ready decoded).load operand
  obtain ⟨sameByte, sameFlags⟩ := s.ready_accumulator decoded
  obtain ⟨computes, carries⟩ := operation.computes_apply (s.load accumulator) y s.flags.c
  let result := operation.apply (s.load accumulator) y s.flags.c
  let written := if operation = .compare then s.load accumulator else result.value
  let flagged := (s.ready decoded).setFlags result.flags
  have executed : s.execute decoded =
      flagged.writeResult accumulator (s.load accumulator) written := by
    rw [s.execute_of_plain plain, action, act_arithmeticOf, sameByte, sameFlags]
  have shows : flagged.load accumulator = s.load accumulator := sameByte
  obtain ⟨value, flags⟩ := flagged.writeResult_accumulator written shows
  obtain ⟨bus, elsewhere, origin⟩ := flagged.writeResult_changes written
  rw [shows] at bus elsewhere origin
  rw [executed]
  refine ⟨⟨result.value, ?_, value⟩, ?_, ?_, ?_, ?_⟩
  · rw [flags]
    exact computes
  · rw [flags]
    exact carries
  · intro q other
    obtain ⟨notAccumulator, notFlags⟩ : q ≠ accumulator ∧ q ≠ .register .f := by
      simpa using other
    rw [elsewhere q (by simpa using notAccumulator), byte?_setFlags _ _ notFlags, byte?_ready]
  · exact ⟨_, bus.trans (s.ready_bus decoded)⟩
  · rw [origin, value]
    exact if_congr Iff.rfl (s.origin?_ready decoded .a) rfl

end

section
variable [AddressSpace.PlainMemory β] {registers : Registers} {memory : β} {address : UInt16}

/-- A step by one, with the operation that it is an instance of. -/
theorem stepped_stepByte {operation : ByteOperation} {target : Place}
    (keeps : s.keeps target = true) (other : target ≠ .register .f) {result : UInt8}
    {subtract half : Bool}
    (computes : ∀ flags : Flags, operation.Computes (s.load target) 1 false result
      { flags with z := result == 0, n := subtract, h := half }) :
    Stepped operation target s (s.stepByte target result subtract half) := by
  have same : (s.write target result).flags = s.flags := s.flags_write other result
  have shown : kept target result = result := if_neg other
  refine ⟨⟨s.load target, result, byte?_of_keeps keeps, computes _, ?_⟩, ?_, ?_⟩
  · unfold stepByte
    rw [byte?_setFlags _ _ other, byte?_write keeps, if_pos rfl, shown]
  · show (s.write target result).flags.c = s.flags.c
    rw [same]
  · intro q outside
    obtain ⟨notTarget, notFlags⟩ : q ≠ target ∧ q ≠ .register .f := by
      simpa using outside
    unfold stepByte
    rw [byte?_setFlags _ _ notFlags, byte?_write keeps, if_neg notTarget]

/-- An instruction that counts a byte up or down does so. -/
theorem stepped_execute {up : Bool} {target : Place}
    (encoded : StepEncoded registers memory address up target) (keeps : s.keeps target = true) :
    Stepped (if up then .add else .sub) target s
      (s.execute (Handheld.decode registers memory address).operation) := by
  obtain ⟨action, plain⟩ := encoded.decode
  let decoded := (Handheld.decode registers memory address).operation
  have other : target ≠ .register .f := by
    cases encoded with
    | selected selects _ => exact selects.ne_flags
  have ready : (s.ready decoded).keeps target = true := by
    rw [keeps_ready, keeps]
  have stepped : Stepped (if up then .add else .sub) target (s.ready decoded)
      ((s.ready decoded).act decoded.action) := by
    rw [action]
    cases up with
    | true => exact stepped_stepByte _ ready other (ByteOperation.computes_increment _)
    | false => exact stepped_stepByte _ ready other (ByteOperation.computes_decrement _)
  obtain ⟨⟨x, result, before, computes, after⟩, carry, elsewhere⟩ := stepped
  rw [s.execute_of_plain plain]
  refine ⟨⟨x, result, ?_, computes, after⟩, ?_, ?_⟩
  · rw [← before, byte?_ready]
  · rw [carry, flags_ready]
  · intro q outside
    rw [elsewhere q outside, byte?_ready]

end

/-- Byte arithmetic is exact, for every operation and every place of an operand. An operation on
the accumulator leaves the result modulo 256 there, a comparison leaves it alone, and the flags
tell what came out and whether it left the range of a byte or of half a byte. Nothing is stored,
no other register changes, and the accumulator keeps its origin exactly if it keeps its value.
The operand is what its place shows once the devices know the time. A step by one does the same
to any register and any byte of plain memory, and leaves the carry alone. -/
theorem byte_arithmetic_exact [AddressSpace.PlainMemory β] (registers : Registers) (memory : β)
    (address : UInt16) (s : System β) :
    let decoded := (Handheld.decode registers memory address).operation
    let t := s.execute decoded
    (∀ (operation : ByteOperation) (operand : Place),
      operation.EncodedAs registers memory address operand →
        Calculated operation ((s.ready decoded).load operand) s t) ∧
      ∀ (up : Bool) (target : Place), StepEncoded registers memory address up target →
        s.keeps target = true → Stepped (if up then .add else .sub) target s t :=
  ⟨fun _ _ encoded => s.calculated_execute encoded,
    fun _ _ encoded keeps => s.stepped_execute encoded keeps⟩

/-- With a carry, the byte 8E added to 72 is 1 and carries out of both halves. As an opcode, 8E is
that addition, so the byte at HL can be the opcode itself. The opcode 34 steps itself. -/
theorem byte_arithmetic_exact_of_own_opcode :
    let registers : Registers := { a := 0x72, flags := { c := true } }
    let s (opcode : UInt8) : System FlatMemory :=
      { cpu := { registers }, bus := ({} : FlatMemory).store (FlatMemory.place 0) opcode }
    let t (opcode : UInt8) :=
      (s opcode).execute (Handheld.decode registers (s opcode).bus 0).operation
    (t 0x8E).load accumulator = 0x01 ∧ (t 0x8E).flags.h = true ∧ (t 0x8E).flags.c = true ∧
      (t 0x8E).origin? accumulator = none ∧
      (t 0x34).byte? (FlatMemory.place 0) = some 0x35 ∧ (t 0x34).flags.c = true := by
  intro registers s t
  have opcode (opcode : UInt8) : AddressSpace.read (s opcode).bus 0 = opcode :=
    FlatMemory.read_store {} 0 opcode
  have atHl : registers.hl = 0 := (by decide : word 0 0 = 0)
  have selects (opcode : UInt8) :
      Selects registers (s opcode).bus 6 (FlatMemory.place 0) := by
    rw [← atHl]
    exact .atHl
  have adds : ByteOperation.adc.EncodedAs registers (s 0x8E).bus 0
      (FlatMemory.place 0) := by
    refine .selected (selects 0x8E) ?_
    rw [opcode]
    rfl
  have increments : StepEncoded registers (s 0x34).bus 0 true
      (FlatMemory.place 0) := by
    refine .selected (selects 0x34) ?_
    rw [opcode]
    rfl
  obtain ⟨⟨result, computes, value⟩, carry, -, -, origin⟩ :=
    ((s 0x8E).byte_arithmetic_exact registers (s 0x8E).bus 0).1 .adc _ adds
  have operand (op : Operation) : ((s 0x8E).ready op).load (FlatMemory.place 0) = 0x8E := by
    rw [load_ready rfl]
    exact (load_at _ 0).trans (opcode 0x8E)
  rw [operand] at computes carry
  have sum : (result.toNat : Int) =
      ((0x72 : UInt8).toNat + (0x8E : UInt8).toNat + true.toNat) % 256 := computes.value
  have one : result = 0x01 := UInt8.toNat_inj.mp (Int.ofNat.inj (sum.trans (by decide)))
  have changed : (t 0x8E).load accumulator = 0x01 := value.trans one
  obtain ⟨⟨x, next, before, steps, after⟩, kept, -⟩ :=
    ((s 0x34).byte_arithmetic_exact registers (s 0x34).bus 0).2 true _ increments rfl
  have held : x = 0x34 := by
    rw [byte?_of_keeps rfl] at before
    exact (Option.some.inj before).symm.trans ((load_at _ 0).trans (opcode 0x34))
  subst held
  have successor : (next.toNat : Int) = ((0x34 : UInt8).toNat + (1 : UInt8).toNat) % 256 :=
    steps.value
  have above : next = 0x35 := UInt8.toNat_inj.mp (Int.ofNat.inj (successor.trans (by decide)))
  refine ⟨changed, computes.h.mpr (.inr ⟨rfl, .inr (by decide)⟩),
    carry.mpr ⟨rfl, .inr (by decide)⟩, ?_, ?_, kept⟩
  · rw [origin]
    exact if_neg (by rw [changed]; decide)
  · rw [after, above]

end System

end Handheld
