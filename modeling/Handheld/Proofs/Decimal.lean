import Mathlib.Data.Nat.Digits.Defs
import Handheld.FlatMemory
import Handheld.Proofs.System
import Handheld.Proofs.Word

/-!
# Decimal arithmetic

A packed decimal byte keeps two decimal digits, one in each half, so a list of such bytes is a
number to the base of a hundred. A program adds two such numbers byte by byte, the lowest first:
it adds with carry what it has in the accumulator, and has the sum adjusted. After a
subtraction the same adjustment does the other correction.

All that is known about one byte is one equation between numbers, with the carry that comes in
and the carry that goes out (`Sums`). A difference is told by the same equation as the summand
that is missing. Such equations join to one for all bytes, and the last one has both the result
and the carry in it.

* `adjusted_sum`, `adjusted_difference`: the equation of one byte.
* `Sums.cons`: the equations of a byte and of those above it are one.
* `Calculates`: a program that goes through the bytes of two numbers.
-/

set_option autoImplicit false

namespace Handheld

open Decoder (accumulator)

/-- Both halves of a byte are decimal digits. -/
def IsDecimal (byte : UInt8) : Prop :=
  byte.toNat / 16 ≤ 9 ∧ byte.toNat % 16 ≤ 9

instance (byte : UInt8) : Decidable (IsDecimal byte) :=
  inferInstanceAs (Decidable (_ ∧ _))

/-- The number that the two digits of a byte form. -/
def decimal (byte : UInt8) : Nat :=
  10 * (byte.toNat / 16) + byte.toNat % 16

/-- The number that packed decimal bytes form, the lowest byte first. -/
def number (bytes : List UInt8) : Nat :=
  Nat.ofDigits 100 (bytes.map decimal)

/-- Two decimal digits are less than a hundred. -/
theorem decimal_lt {byte : UInt8} (digits : IsDecimal byte) : decimal byte < 100 := by
  unfold IsDecimal at digits
  unfold decimal
  omega

/-- Two decimal bytes of one value are equal. -/
theorem decimal_inj {x y : UInt8} (decimalX : IsDecimal x) (decimalY : IsDecimal y)
    (same : decimal x = decimal y) : x = y := by
  unfold IsDecimal at decimalX decimalY
  unfold decimal at same
  apply UInt8.toNat_inj.mp
  omega

/-- A number is its lowest byte and a hundred times the rest. -/
theorem number_cons (byte : UInt8) (bytes : List UInt8) :
    number (byte :: bytes) = decimal byte + 100 * number bytes :=
  Nat.ofDigits_cons

/-- A number of so many bytes is less than that power of a hundred. -/
theorem number_lt {bytes : List UInt8} (digits : ∀ byte ∈ bytes, IsDecimal byte) :
    number bytes < 100 ^ bytes.length := by
  have long : (bytes.map decimal).length = bytes.length := List.length_map decimal
  rw [← long]
  apply Nat.ofDigits_lt_base_pow_length (by decide)
  intro digit member
  obtain ⟨byte, among, rfl⟩ := List.mem_map.mp member
  exact decimal_lt (digits byte among)

/-- Packed decimal bytes are told by their number. -/
theorem number_inj {xs ys : List UInt8} (long : xs.length = ys.length)
    (decimalXs : ∀ x ∈ xs, IsDecimal x) (decimalYs : ∀ y ∈ ys, IsDecimal y)
    (same : number xs = number ys) : xs = ys := by
  induction xs generalizing ys with
  | nil => exact (List.length_eq_zero_iff.mp long.symm).symm
  | cons x xs ih =>
    cases ys with
    | nil => contradiction
    | cons y ys =>
      rw [List.forall_mem_cons] at decimalXs decimalYs
      have lowX := decimal_lt decimalXs.1
      have lowY := decimal_lt decimalYs.1
      rw [number_cons, number_cons] at same
      rw [decimal_inj decimalXs.1 decimalYs.1 (by omega),
        ih (Nat.succ.inj long) decimalXs.2 decimalYs.2 (by omega)]

/-! ## One byte -/

/-- The carry as a byte and as a number. -/
theorem toNat_carryByte (carry : Bool) : (carryByte carry).toNat = carry.toNat := by
  cases carry <;> rfl

/-- A decision as a number. -/
theorem toNat_decide (p : Prop) [Decidable p] : (decide p).toNat = if p then 1 else 0 := by
  split <;> simp [*]

/-- A sum of bytes, and its carries out of bits 3 and 7. -/
theorem addBytes_exact (x y : UInt8) (carry : Bool) :
    let sum := addBytes x y carry
    sum.value.toNat = (x.toNat + y.toNat + carry.toNat) % 256 ∧
      sum.flags.h = decide (x.toNat % 16 + y.toNat % 16 + carry.toNat > 0x0F) ∧
      sum.flags.c = decide (x.toNat + y.toNat + carry.toNat > 0xFF) := by
  intro sum
  rw [← toNat_carryByte]
  refine ⟨?_, rfl, rfl⟩
  show (x + y + carryByte carry).toNat = _
  rw [UInt8.toNat_add, UInt8.toNat_add, Nat.mod_add_mod]

/-- A difference of bytes is what is missing, and its borrows. -/
theorem subBytes_exact (x y : UInt8) (borrow : Bool) :
    let difference := subBytes x y borrow
    x.toNat = (difference.value.toNat + y.toNat + borrow.toNat) % 256 ∧
      difference.flags.h = decide (x.toNat % 16 < y.toNat % 16 + borrow.toNat) ∧
      difference.flags.c = decide (x.toNat < y.toNat + borrow.toNat) := by
  intro difference
  rw [← toNat_carryByte]
  refine ⟨?_, rfl, rfl⟩
  have undone : x = difference.value + y + carryByte borrow := by
    show x = x - y - carryByte borrow + y + carryByte borrow
    grind
  calc
    x.toNat = (difference.value + y + carryByte borrow).toNat := congrArg UInt8.toNat undone
    _ = _ := by rw [UInt8.toNat_add, UInt8.toNat_add, Nat.mod_add_mod]

/-- What a sum is corrected by. The ones are tested after the tens have been corrected, but that
has not changed them. -/
theorem decimalAdjust_of_sum (value : UInt8) {flags : Flags} (sum : flags.n = false) :
    let result := decimalAdjust value flags
    result.flags.c = (flags.c || decide (0x99 < value.toNat)) ∧
      result.value.toNat =
        (value.toNat + 0x60 * result.flags.c.toNat +
          0x06 * (flags.h || decide (9 < value.toNat % 16)).toNat) % 256 := by
  intro result
  have high : decide (value > 0x99) = decide (0x99 < value.toNat) := by
    simp only [gt_iff_lt, UInt8.lt_iff_toNat_lt]
    rfl
  have carried : result.flags.c = (flags.c || decide (0x99 < value.toNat)) := by
    simp only [result, decimalAdjust, sum, high, Bool.false_eq_true, if_false]
  let tens := if result.flags.c then value + 0x60 else value
  have corrected : tens.toNat = (value.toNat + 0x60 * result.flags.c.toNat) % 256 := by
    unfold tens
    cases result.flags.c with
    | false => exact (Nat.mod_eq_of_lt value.toNat_lt).symm
    | true => exact UInt8.toNat_add _ _
  have low : decide (tens &&& 0x0F > 0x09) = decide (9 < value.toNat % 16) := by
    have digit : (tens &&& 0x0F).toNat = tens.toNat % 16 := toNat_and_low tens 4 rfl
    have same : tens.toNat % 16 = value.toNat % 16 := by
      rw [corrected]
      omega
    simp only [gt_iff_lt, UInt8.lt_iff_toNat_lt, digit, same]
    rfl
  have shown : result.value =
      if flags.h || decide (9 < value.toNat % 16) then tens + 0x06 else tens := by
    rw [← low]
    unfold tens
    rw [carried, ← high]
    simp only [result, decimalAdjust, sum, Bool.false_eq_true, if_false]
  refine ⟨carried, ?_⟩
  rw [shown]
  cases flags.h || decide (9 < value.toNat % 16) with
  | false => exact corrected
  | true =>
    rw [if_pos rfl, UInt8.toNat_add, corrected]
    exact Nat.mod_add_mod _ _ _

/-- What a difference is corrected by. -/
theorem decimalAdjust_of_difference (value : UInt8) {flags : Flags} (difference : flags.n = true) :
    let result := decimalAdjust value flags
    result.flags.c = flags.c ∧
      value.toNat = (result.value.toNat + 0x06 * flags.h.toNat + 0x60 * flags.c.toNat) % 256 := by
  intro result
  have carried : result.flags.c = flags.c := by
    simp only [result, decimalAdjust, difference, if_true]
  have corrected : value =
      result.value + (if flags.h then 0x06 else 0) + (if flags.c then 0x60 else 0) := by
    simp only [result, decimalAdjust, difference, if_true]
    cases flags.c <;> cases flags.h <;> grind
  refine ⟨carried, ?_⟩
  calc
    value.toNat = (result.value + (if flags.h then 0x06 else 0) +
        (if flags.c then 0x60 else 0)).toNat := congrArg UInt8.toNat corrected
    _ = _ := by
      rw [UInt8.toNat_add, UInt8.toNat_add, Nat.mod_add_mod]
      cases flags.c <;> cases flags.h <;> rfl

/-- Two numbers and a carry are a third number and a carry of the weight `scale`. -/
def Sums (scale x y : Nat) (carry : Bool) (z : Nat) (carried : Bool) : Prop :=
  z + scale * carried.toNat = x + y + carry.toNat

/-- A sum of two decimal bytes is decimal after the adjustment, with the carry out of the hundred.
-/
theorem adjusted_sum {x y : UInt8} (decimalX : IsDecimal x) (decimalY : IsDecimal y)
    (carry : Bool) :
    let sum := addBytes x y carry
    let result := decimalAdjust sum.value sum.flags
    IsDecimal result.value ∧
      Sums 100 (decimal x) (decimal y) carry (decimal result.value) result.flags.c := by
  intro sum result
  have one := Bool.toNat_le carry
  obtain ⟨value, half, full⟩ := addBytes_exact x y carry
  change sum.value.toNat = _ at value
  change sum.flags.h = _ at half
  change sum.flags.c = _ at full
  obtain ⟨carried, shown⟩ := decimalAdjust_of_sum sum.value (rfl : sum.flags.n = false)
  change result.flags.c = _ at carried
  change result.value.toNat = (_ + _ * result.flags.c.toNat + _) % _ at shown
  rw [full, value, ← Bool.decide_or] at carried
  rw [carried, half, value, ← Bool.decide_or, toNat_decide, toNat_decide] at shown
  unfold IsDecimal at decimalX decimalY
  unfold IsDecimal Sums decimal
  rw [carried, toNat_decide]
  split_ifs at shown ⊢ <;> omega

/-- A difference of two decimal bytes is decimal after the adjustment, with the borrow of a
hundred. -/
theorem adjusted_difference {x y : UInt8} (decimalX : IsDecimal x) (decimalY : IsDecimal y)
    (borrow : Bool) :
    let difference := subBytes x y borrow
    let result := decimalAdjust difference.value difference.flags
    IsDecimal result.value ∧
      Sums 100 (decimal result.value) (decimal y) borrow (decimal x) result.flags.c := by
  intro difference result
  have one := Bool.toNat_le borrow
  obtain ⟨value, half, full⟩ := subBytes_exact x y borrow
  change x.toNat = (difference.value.toNat + _ + _) % _ at value
  change difference.flags.h = _ at half
  change difference.flags.c = _ at full
  obtain ⟨carried, shown⟩ :=
    decimalAdjust_of_difference difference.value (rfl : difference.flags.n = true)
  change result.flags.c = _ at carried
  change _ = (result.value.toNat + _ + _) % _ at shown
  rw [full] at carried
  rw [half, full, toNat_decide, toNat_decide] at shown
  have before := difference.value.toNat_lt
  have after := result.value.toNat_lt
  unfold IsDecimal at decimalX decimalY
  unfold IsDecimal Sums decimal
  rw [carried, toNat_decide]
  split_ifs at shown ⊢ <;> omega

/-! ## All bytes -/

namespace Sums

variable {scale x y z : Nat} {carry carried : Bool}

/-- The sums of the low digits and of the rest make up the sum. -/
theorem cons {xs ys zs : Nat} {last : Bool} (low : Sums 100 x y carry z carried)
    (high : Sums scale xs ys carried zs last) :
    Sums (100 * scale) (x + 100 * xs) (y + 100 * ys) carry (z + 100 * zs) last := by
  unfold Sums at *
  rw [Nat.mul_assoc]
  omega

/-- The sum of two numbers is what is left of it, and the carry tells whether it ran over. -/
theorem eq_mod (sums : Sums scale x y carry z carried) (small : z < scale) :
    z = (x + y + carry.toNat) % scale ∧ carried = decide (scale ≤ x + y + carry.toNat) := by
  unfold Sums at sums
  rw [← sums]
  cases carried with
  | false => simp [Nat.mod_eq_of_lt small, small]
  | true => simp [Nat.mod_eq_of_lt small]

/-- The missing summand is the difference, and the carry tells whether it was borrowed. -/
theorem sub_eq_mod (sums : Sums scale z y carry x carried) (small : z < scale) :
    (z : Int) = (x - y - carry.toNat) % scale ∧ carried = decide (x < y + carry.toNat) := by
  unfold Sums at sums
  have known : (x : Int) - y - carry.toNat = z - scale * carried.toNat := by omega
  have least : (z : Int) % scale = z := Int.emod_eq_of_lt (by omega) (by omega)
  rw [known, Int.sub_mul_emod_self_left, least]
  refine ⟨rfl, ?_⟩
  cases carried with
  | false =>
    rw [Bool.toNat_false, Nat.mul_zero] at sums
    exact (decide_eq_false (by omega)).symm
  | true =>
    rw [Bool.toNat_true, Nat.mul_one] at sums
    exact (decide_eq_true (by omega)).symm

end Sums

/-- The equation of an addition with carry, or of a subtraction, whose result is the summand
that is missing. -/
def SumKind.Solves (kind : SumKind) (scale x y : Nat) (carry : Bool) (z : Nat) (carried : Bool) :
    Prop :=
  match kind with
  | .add | .adc => Sums scale x y carry z carried
  | .sub | .sbc => Sums scale z y carry x carried

/-- The equations of the low digits and of the rest make up the equation. -/
theorem SumKind.Solves.cons {kind : SumKind} {scale x y z xs ys zs : Nat}
    {carry carried last : Bool} (low : kind.Solves 100 x y carry z carried)
    (high : kind.Solves scale xs ys carried zs last) :
    kind.Solves (100 * scale) (x + 100 * xs) (y + 100 * ys) carry (z + 100 * zs) last := by
  cases kind <;> exact Sums.cons low high

/-- With carry chained in, a decimal byte is the missing part of its equation. -/
theorem adjusted {kind : SumKind} (chained : kind = .adc ∨ kind = .sbc) {x y : UInt8}
    (decimalX : IsDecimal x) (decimalY : IsDecimal y) (carry : Bool) :
    let raw := kind.apply x y carry
    let result := decimalAdjust raw.value raw.flags
    IsDecimal result.value ∧
      kind.Solves 100 (decimal x) (decimal y) carry (decimal result.value) result.flags.c := by
  obtain rfl | rfl := chained
  · exact adjusted_sum decimalX decimalY carry
  · exact adjusted_difference decimalX decimalY carry

namespace System

variable {β : Type} [AddressSpace β]

/-- The step of HL leaves accumulator and flags alone. -/
theorem stepHl_accumulator (s : System β) (step : Int8) :
    (s.stepHl step).load accumulator = s.load accumulator ∧ (s.stepHl step).flags = s.flags := by
  unfold stepHl
  split
  · exact ⟨rfl, rfl⟩
  · simp [writePair, load, flags, accumulator, Registers.get, Registers.set, RegisterPair.high,
      RegisterPair.low]

/-- Counting the length and the cycles of an operation leaves accumulator and flags alone. -/
theorem ready_accumulator (s : System β) (operation : Operation) :
    (s.ready operation).load accumulator = s.load accumulator ∧
      (s.ready operation).flags = s.flags := by
  simp [load, flags, accumulator, ready_cpu]

/-- A result arrives in the accumulator, whether it had to be written or not. -/
theorem writeResult_accumulator (s : System β) {old : UInt8} (result : UInt8)
    (shows : s.load accumulator = old) :
    (s.writeResult accumulator old result).load accumulator = result ∧
      (s.writeResult accumulator old result).flags = s.flags := by
  unfold writeResult
  split
  next => simp [load, flags, accumulator, Registers.get, Registers.set]
  next same => exact ⟨shows.trans (not_not.mp same).symm, rfl⟩

/-- A sum leaves its result in the accumulator and its flags. -/
theorem execute_sum (s : System β) {operation : Operation} {kind : SumKind} {operand : Place}
    (sums : operation.action = .sum8 kind accumulator operand) :
    let result := kind.apply (s.load accumulator) ((s.ready operation).load operand) s.flags.c
    (s.execute operation).load accumulator = result.value ∧
      (s.execute operation).flags = result.flags := by
  intro result
  have executed : s.execute operation =
      ((s.ready operation).sumByte kind accumulator operand).stepHl operation.hlStep := by
    show ((s.ready operation).act operation.action).stepHl _ = _
    rw [sums]
    rfl
  obtain ⟨value, flags⟩ := stepHl_accumulator ((s.ready operation).sumByte kind accumulator operand)
    operation.hlStep
  obtain ⟨same, sameFlags⟩ := s.ready_accumulator operation
  rw [executed, value, flags]
  unfold sumByte
  rw [same, sameFlags]
  exact writeResult_accumulator ((s.ready operation).setFlags result.flags) result.value same

/-- An adjustment leaves the corrected byte in the accumulator. -/
theorem execute_adjust (s : System β) {operation : Operation}
    (adjusts : operation.action = .decimalAdjust accumulator) :
    let result := decimalAdjust (s.load accumulator) s.flags
    (s.execute operation).load accumulator = result.value ∧
      (s.execute operation).flags.c = result.flags.c := by
  intro result
  have executed : s.execute operation =
      ((s.ready operation).adjustByte accumulator).stepHl operation.hlStep := by
    show ((s.ready operation).act operation.action).stepHl _ = _
    rw [adjusts]
    rfl
  obtain ⟨value, flags⟩ := stepHl_accumulator ((s.ready operation).adjustByte accumulator)
    operation.hlStep
  obtain ⟨same, sameFlags⟩ := s.ready_accumulator operation
  rw [executed, value, flags]
  unfold adjustByte
  rw [same, sameFlags]
  exact ⟨rfl, rfl⟩

/-- A program goes through the bytes `xs` and `ys` of two numbers, the lowest first. It has a
byte of the first number in the accumulator, adds that of the second one to it or subtracts it,
adjusts the result, and collects it in `zs`. Between two bytes it may do whatever keeps the
carry. -/
inductive Calculates (kind : SumKind) :
    System β → List UInt8 → List UInt8 → List UInt8 → System β → Prop
  | done (s : System β) : Calculates kind s [] [] [] s
  | byte {s t last : System β} {sum adjust : Operation} {operand : Place} {xs ys zs : List UInt8}
      (carry : t.flags.c = s.flags.c)
      (sums : sum.action = .sum8 kind accumulator operand)
      (adjusts : adjust.action = .decimalAdjust accumulator)
      (rest : Calculates kind ((t.execute sum).execute adjust) xs ys zs last) :
      Calculates kind s (t.load accumulator :: xs) ((t.ready sum).load operand :: ys)
        (((t.execute sum).execute adjust).load accumulator :: zs) last

/-- There is such a program for any two numbers of the same length, one with the second number
in register B. -/
theorem exists_calculates (kind : SumKind) (s : System β) {xs ys : List UInt8}
    (long : xs.length = ys.length) : ∃ zs last, Calculates kind s xs ys zs last := by
  induction xs generalizing s ys with
  | nil =>
    rw [List.length_eq_zero_iff.mp long.symm]
    exact ⟨[], s, .done s⟩
  | cons x xs ih =>
    cases ys with
    | nil => contradiction
    | cons y ys =>
      let t := (s.setRegister .a x).setRegister .b y
      let sum : Operation := ⟨.sum8 kind accumulator (.register .b), 1, 4, 0⟩
      let adjust : Operation := ⟨.decimalAdjust accumulator, 1, 4, 0⟩
      obtain ⟨zs, last, rest⟩ := ih ((t.execute sum).execute adjust) (Nat.succ.inj long)
      have operand : (t.ready sum).load (.register .b) = y := by
        show (t.ready sum).cpu.registers.b = y
        rw [ready_cpu]
        rfl
      have sums : sum.action = .sum8 kind accumulator (.register .b) := rfl
      have adjusts : adjust.action = .decimalAdjust accumulator := rfl
      have run := Calculates.byte (s := s) (t := t) rfl sums adjusts rest
      rw [operand] at run
      exact ⟨_, last, run⟩

/-- What is collected are decimal digits, and one equation holds of all of them. -/
theorem Calculates.solves {kind : SumKind} (chained : kind = .adc ∨ kind = .sbc)
    {s last : System β} {xs ys zs : List UInt8} (run : Calculates kind s xs ys zs last)
    (decimalXs : ∀ x ∈ xs, IsDecimal x) (decimalYs : ∀ y ∈ ys, IsDecimal y) :
    zs.length = xs.length ∧ (∀ z ∈ zs, IsDecimal z) ∧
      kind.Solves (100 ^ xs.length) (number xs) (number ys) s.flags.c (number zs)
        last.flags.c := by
  induction run with
  | done s =>
    have nothing : Sums 1 0 0 s.flags.c 0 s.flags.c := by
      unfold Sums
      omega
    refine ⟨rfl, nofun, ?_⟩
    obtain rfl | rfl := chained <;> exact nothing
  | @byte s t last sum adjust operand xs ys zs carry sums adjusts rest ih =>
    rw [List.forall_mem_cons] at decimalXs decimalYs
    obtain ⟨long, digits, high⟩ := ih decimalXs.2 decimalYs.2
    obtain ⟨raw, rawFlags⟩ := t.execute_sum sums
    obtain ⟨collected, carried⟩ := (t.execute sum).execute_adjust adjusts
    rw [raw, rawFlags] at collected carried
    obtain ⟨digit, low⟩ := adjusted chained decimalXs.1 decimalYs.1 t.flags.c
    rw [← collected] at digit low
    rw [← carried, carry] at low
    refine ⟨congrArg Nat.succ long, List.forall_mem_cons.mpr ⟨digit, digits⟩, ?_⟩
    rw [number_cons, number_cons, number_cons, List.length_cons, Nat.pow_succ']
    exact low.cons high

/-- Adding and subtracting packed decimal numbers byte by byte is exact: a program that does it
collects the digits of the sum or of the difference, as far as there is room for them, and the
carry it leaves is the one that has gone out. -/
theorem decimal_calculation_exact (s : System β) {xs ys : List UInt8}
    (long : xs.length = ys.length) (decimalXs : ∀ x ∈ xs, IsDecimal x)
    (decimalYs : ∀ y ∈ ys, IsDecimal y) :
    let scale := 10 ^ (2 * xs.length)
    let carry := s.flags.c.toNat
    (∃ zs last, Calculates .adc s xs ys zs last) ∧
      (∀ zs last, Calculates .adc s xs ys zs last →
        zs.length = xs.length ∧ (∀ z ∈ zs, IsDecimal z) ∧
          number zs = (number xs + number ys + carry) % scale ∧
          last.flags.c = decide (scale ≤ number xs + number ys + carry)) ∧
      (∃ zs last, Calculates .sbc s xs ys zs last) ∧
      (∀ zs last, Calculates .sbc s xs ys zs last →
        zs.length = xs.length ∧ (∀ z ∈ zs, IsDecimal z) ∧
          (number zs : Int) = ((number xs : Int) - number ys - carry) % scale ∧
          last.flags.c = decide (number xs < number ys + carry)) := by
  intro scale carry
  have hundreds : scale = 100 ^ xs.length := Nat.pow_mul 10 2 xs.length
  refine ⟨exists_calculates .adc s long, ?_, exists_calculates .sbc s long, ?_⟩
  · intro zs last run
    obtain ⟨same, digits, sums⟩ := run.solves (.inl rfl) decimalXs decimalYs
    have small := number_lt digits
    rw [same] at small
    rw [hundreds]
    exact ⟨same, digits, Sums.eq_mod sums small⟩
  · intro zs last run
    obtain ⟨same, digits, sums⟩ := run.solves (.inr rfl) decimalXs decimalYs
    have small := number_lt digits
    rw [same] at small
    rw [hundreds]
    exact ⟨same, digits, Sums.sub_eq_mod sums small⟩

/-- With a carry, 1298 and 8701 are a hundred hundreds; 8701 from 1298 borrows. -/
theorem decimal_calculation_of_four_digits :
    let s : System FlatMemory := { cpu := { registers := { flags := { c := true } } }, bus := {} }
    let xs : List UInt8 := [0x98, 0x12]
    let ys : List UInt8 := [0x01, 0x87]
    xs.length = ys.length ∧ (∀ x ∈ xs, IsDecimal x) ∧ (∀ y ∈ ys, IsDecimal y) ∧
      (∃ last, Calculates .adc s xs ys [0x00, 0x00] last ∧ last.flags.c = true) ∧
      (∃ last, Calculates .sbc s xs ys [0x96, 0x25] last ∧ last.flags.c = true) := by
  intro s xs ys
  have decimalXs : ∀ x ∈ xs, IsDecimal x := by simp [xs, IsDecimal]
  have decimalYs : ∀ y ∈ ys, IsDecimal y := by simp [ys, IsDecimal]
  have long : xs.length = ys.length := rfl
  obtain ⟨⟨sums, last, adds⟩, sum, ⟨rests, later, subtracts⟩, difference⟩ :=
    decimal_calculation_exact s long decimalXs decimalYs
  obtain ⟨longSum, digitsSum, valueSum, carrySum⟩ := sum sums last adds
  obtain ⟨longRest, digitsRest, valueRest, carryRest⟩ := difference rests later subtracts
  have sumIs : sums = [0x00, 0x00] :=
    number_inj longSum digitsSum (by simp [IsDecimal]) (valueSum.trans (by decide))
  have restIs : rests = [0x96, 0x25] :=
    number_inj longRest digitsRest (by simp [IsDecimal])
      (Int.ofNat.inj (valueRest.trans (by decide)))
  rw [sumIs] at adds
  rw [restIs] at subtracts
  refine ⟨long, decimalXs, decimalYs, ⟨last, adds, ?_⟩, ⟨later, subtracts, ?_⟩⟩
  · rw [carrySum]
    decide
  · rw [carryRest]
    decide

end System

end Handheld
