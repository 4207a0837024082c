import Handheld.Device.SerialInterface

/-!
# Catching up with the serial interface twice

Bits are shifted when they are due, and a bit that is due at one moment is due at every
later one. So the bits shifted up to one moment and then those up to a later one are
the bits shifted up to the later one at once.
-/

set_option autoImplicit false

namespace Handheld.SerialInterface

/-- A bit that is due is shifted, and the others follow unless it was the last. -/
theorem shiftDue_of_due {now : UInt64} {serial : SerialInterface} (due : serial.nextBit ≤ now)
    (data : UInt8) (bits : Nat) :
    shiftDue now serial data (bits + 2) =
      shiftDue now
        { serial with bitsLeft := bits + 1, nextBit := serial.nextBit + serial.bitTime }
        ((data <<< 1) ||| 0x01) (bits + 1) := by
  rw [shiftDue, if_pos due]
  exact if_neg (Nat.succ_ne_zero bits)

/-- No bit is shifted before it is due. -/
theorem shiftDue_of_not_due {now : UInt64} {serial : SerialInterface}
    (early : ¬ serial.nextBit ≤ now) (data : UInt8) (bits : Nat) :
    shiftDue now serial data bits = (serial, data, false) := by
  cases bits with
  | zero => rfl
  | succ bits => rw [shiftDue, if_neg early]

/-- No shift changes what was captured. -/
theorem shiftDue_output (now : UInt64) (serial : SerialInterface) (data : UInt8) (bits : Nat) :
    (shiftDue now serial data bits).1.output = serial.output := by
  induction bits generalizing serial data with
  | zero => rfl
  | succ bits ih =>
    unfold shiftDue
    split
    · dsimp only
      split
      · rfl
      · exact ih _ _
    · rfl

/-- Shifting in two stretches ends as shifting at once, and the last bit is shifted in
one of them if it is in the whole time. The induction is on the bits that are left. -/
theorem shiftDue_shiftDue {middle now : UInt64} (order : middle ≤ now) (bits : Nat)
    (serial : SerialInterface) (data : UInt8) (left : serial.bitsLeft = bits) :
    let first := shiftDue middle serial data bits
    let second := shiftDue now first.1 first.2.1 first.1.bitsLeft
    let whole := shiftDue now serial data bits
    second.1 = whole.1 ∧ second.2.1 = whole.2.1 ∧ (first.2.2 || second.2.2) = whole.2.2 := by
  induction bits generalizing serial data with
  | zero => simp [shiftDue, left]
  | succ bits ih =>
    intro first second whole
    by_cases due : serial.nextBit ≤ middle
    · have still : serial.nextBit ≤ now := UInt64.le_trans due order
      cases bits with
      | zero => simp [first, second, whole, shiftDue, due, still]
      | succ bits =>
        unfold second first whole
        rw [shiftDue_of_due due, shiftDue_of_due still]
        exact ih _ _ rfl
    · have idle : first = (serial, data, false) := shiftDue_of_not_due due data (bits + 1)
      unfold second
      rw [idle, left]
      exact ⟨rfl, rfl, rfl⟩

/-- An interface that catches up in two stretches ends as one that catches up at once,
and a transfer is completed in the whole time if it is in one of the stretches. -/
theorem update_update (serial : SerialInterface) {middle now : UInt64} (order : middle ≤ now)
    (data : UInt8) :
    let first := serial.update middle data
    let second := first.1.update now first.2.1
    let whole := serial.update now data
    second.1 = whole.1 ∧ second.2.1 = whole.2.1 ∧ (first.2.2 || second.2.2) = whole.2.2 :=
  shiftDue_shiftDue order serial.bitsLeft serial data rfl

end Handheld.SerialInterface
