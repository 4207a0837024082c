import Handheld.Word
import Mathlib.Tactic.IntervalCases

/-!
# Words and masks

A word is made of its two bytes and of nothing else. Besides, some facts about masks: a
mask of the lowest bits is a division, a mask distributes over a union of bits, bits that
were set are found set, and what agrees under a mask agrees under any part of it.
-/

set_option autoImplicit false

namespace Handheld

/-! ## Words -/

/-- A word counts its upper byte by the multiples of 256. -/
theorem toNat_word (high low : UInt8) : (word high low).toNat = high.toNat * 256 + low.toNat := by
  have small := high.toNat_lt
  have fits := low.toNat_lt
  have shifted : high.toUInt16.toNat <<< 8 % 2 ^ 16 = high.toNat <<< 8 := by
    rw [UInt8.toNat_toUInt16, Nat.shiftLeft_eq]
    exact Nat.mod_eq_of_lt (by omega)
  unfold word
  rw [UInt16.toNat_or, UInt16.toNat_shiftLeft, UInt8.toNat_toUInt16 low]
  show high.toUInt16.toNat <<< 8 % 2 ^ 16 ||| low.toNat = _
  rw [shifted, ← Nat.shiftLeft_add_eq_or_of_lt fits, Nat.shiftLeft_eq]

/-- The high byte is the quotient by 256. -/
theorem toNat_highByte (value : UInt16) : (highByte value).toNat = value.toNat / 256 := by
  have := value.toNat_lt
  unfold highByte
  rw [UInt16.toNat_toUInt8, UInt16.toNat_shiftRight]
  show value.toNat >>> 8 % 2 ^ 8 = _
  rw [Nat.shiftRight_eq_div_pow]
  exact Nat.mod_eq_of_lt (by omega)

/-- The low byte is the remainder by 256. -/
theorem toNat_lowByte (value : UInt16) : (lowByte value).toNat = value.toNat % 256 :=
  UInt16.toNat_toUInt8 value

/-- A word is put together again from its two bytes. -/
theorem word_bytes (value : UInt16) : word (highByte value) (lowByte value) = value := by
  apply UInt16.toNat_inj.mp
  rw [toNat_word, toNat_highByte, toNat_lowByte, Nat.mul_comm]
  exact Nat.div_add_mod _ _

/-- Two words agree exactly when both their bytes do. -/
theorem word_inj {high low high' low' : UInt8} :
    word high low = word high' low' ↔ high = high' ∧ low = low' := by
  constructor
  · intro same
    have sums := congrArg UInt16.toNat same
    rw [toNat_word, toNat_word] at sums
    have := low.toNat_lt
    have := low'.toNat_lt
    exact ⟨UInt8.toNat_inj.mp (by omega), UInt8.toNat_inj.mp (by omega)⟩
  · rintro ⟨rfl, rfl⟩
    rfl

/-- The high byte of a word is the one it was built with. -/
theorem highByte_word (high low : UInt8) : highByte (word high low) = high :=
  (word_inj.mp (word_bytes (word high low))).1

/-- The low byte of a word is the one it was built with. -/
theorem lowByte_word (high low : UInt8) : lowByte (word high low) = low :=
  (word_inj.mp (word_bytes (word high low))).2

/-- An address so far above another. -/
theorem toNat_add_ofNat (base : UInt16) {n : Nat} (fits : base.toNat + n < 0x10000) :
    (base + UInt16.ofNat n).toNat = base.toNat + n := by
  have small : n < UInt16.size := Nat.lt_of_le_of_lt (Nat.le_add_left n base.toNat) fits
  rw [UInt16.toNat_add, UInt16.toNat_ofNat_of_lt' small]
  exact Nat.mod_eq_of_lt fits

/-- An address so far above the start of a window lies in it. -/
theorem window_add_ofNat {base top : UInt16} {n : Nat} (inside : base.toNat + n < top.toNat) :
    base ≤ base + UInt16.ofNat n ∧ base + UInt16.ofNat n < top := by
  have address := toNat_add_ofNat base (Nat.lt_trans inside top.toNat_lt)
  rw [UInt16.le_iff_toNat_le, UInt16.lt_iff_toNat_lt, address]
  exact ⟨Nat.le_add_right _ _, inside⟩

/-! ## Masks -/

/-- A mask of the lowest bits leaves the remainder of a division. -/
theorem toNat_and_low (value : UInt8) {mask : UInt8} (bits : Nat)
    (low : mask.toNat = 2 ^ bits - 1) : (value &&& mask).toNat = value.toNat % 2 ^ bits := by
  rw [UInt8.toNat_and, low]
  exact Nat.and_two_pow_sub_one_eq_mod _ _

/-- An address that is forced into the window of video RAM has its distance from there below
0x2000. -/
theorem toNat_videoAddress (address : UInt16) :
    (0x8000 ||| (address &&& 0x1FFF)).toNat = 0x8000 + address.toNat % 0x2000 := by
  have low : (address &&& 0x1FFF).toNat = address.toNat % 0x2000 := by
    rw [UInt16.toNat_and]
    exact Nat.and_two_pow_sub_one_eq_mod _ 13
  have below := Nat.mod_lt address.toNat (show 0 < 0x2000 by decide)
  rw [UInt16.toNat_or, low]
  exact (Nat.two_pow_add_eq_or_of_lt (i := 15) (by omega) 1).symm

/-- Whatever register pair a video transfer takes its target from, the target lies in video RAM.
-/
theorem videoAddress_window (address : UInt16) :
    0x8000 ≤ 0x8000 ||| (address &&& 0x1FFF) ∧ 0x8000 ||| (address &&& 0x1FFF) < 0xA000 := by
  have below := Nat.mod_lt address.toNat (show 0 < 0x2000 by decide)
  rw [UInt16.le_iff_toNat_le, UInt16.lt_iff_toNat_lt, toNat_videoAddress]
  exact ⟨Nat.le_add_right _ _, Nat.add_lt_add_left below _⟩

/-- The lower half of the lower byte is the lowest of the four digits of a word. -/
theorem word_and_mask (high low : UInt8) :
    word high (low &&& 0xF0) = word high low &&& 0xFFF0 := by
  unfold word
  apply UInt16.toBitVec_inj.mp
  ext i bound
  simp
  interval_cases i <;> simp

/-- A mask acts on each part of a union by itself. -/
theorem or_and_mask (a b mask : UInt8) : (a ||| b) &&& mask = (a &&& mask) ||| (b &&& mask) :=
  UInt8.toBitVec_inj.mp BitVec.and_or_distrib_right

/-- What is the same under a mask is the same under a part of it. -/
theorem and_eq_of_and_eq {first second outer mask : UInt8}
    (same : first &&& outer = second &&& outer) (part : outer &&& mask = mask) :
    first &&& mask = second &&& mask := by
  rw [← part, ← UInt8.and_assoc, same, UInt8.and_assoc]

/-- A mask finds all the bits that it has set itself. -/
theorem or_and_self (value mask : UInt8) : (value ||| mask) &&& mask = mask := by
  apply UInt8.toBitVec_inj.mp
  ext i bound
  simp +contextual

end Handheld
