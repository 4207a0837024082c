import Handheld.Device.Timer

/-!
# Catching up with the timer twice

A device that catches up in two stretches does what it does in one. What has to be
counted in the whole time is counted in one of the stretches: the number of periods
that have gone by splits at the time of the first, because the device remembers where
its last full period ended.
-/

set_option autoImplicit false

namespace Handheld

/-! ## Periods that have gone by -/

/-- How many full periods have gone by since `start`. -/
def periodsGone (period start now : UInt64) : Nat := (elapsed start now / period).toNat

/-- The end of the last full period. -/
def periodEnd (period start now : UInt64) : UInt64 :=
  start + UInt64.ofNat (periodsGone period start now) * period

/-- Between two times lies their difference, or nothing if they are out of order. -/
theorem elapsed_toNat (start now : UInt64) :
    (elapsed start now).toNat = now.toNat - start.toNat := by
  unfold elapsed
  split
  next later => exact UInt64.toNat_sub_of_le _ _ later
  next earlier =>
    have := UInt64.lt_iff_toNat_lt.mp (UInt64.not_le.mp earlier)
    simp only [UInt64.toNat_zero]
    omega

/-- The number of whole periods gone, by their values. -/
theorem periodsGone_eq (period start now : UInt64) :
    periodsGone period start now = (now.toNat - start.toNat) / period.toNat := by
  unfold periodsGone
  rw [UInt64.toNat_div, elapsed_toNat]

/-- One period more, counted from the front. -/
theorem periods_succ (period start : UInt64) (n : Nat) :
    start + UInt64.ofNat (n + 1) * period = start + period + UInt64.ofNat n * period := by
  rw [UInt64.ofNat_add, UInt64.add_mul, UInt64.ofNat_one, UInt64.one_mul, UInt64.add_assoc,
    UInt64.add_comm period]

/-- The ends of the periods that have gone by are computed without wrapping. -/
theorem toNat_periods {period start now : UInt64} {n : Nat}
    (few : n ≤ periodsGone period start now) :
    (start + UInt64.ofNat n * period).toNat = start.toNat + n * period.toNat := by
  rw [periodsGone_eq] at few
  have within : n * period.toNat ≤ now.toNat - start.toNat :=
    Nat.le_trans (Nat.mul_le_mul_right _ few) (Nat.div_mul_le_self _ _)
  have fewer : n ≤ now.toNat - start.toNat := Nat.le_trans few (Nat.div_le_self _ _)
  have := start.toNat_lt
  have := now.toNat_lt
  have small : n < UInt64.size := by
    show n < 2 ^ 64
    omega
  rw [UInt64.toNat_add, UInt64.toNat_mul, UInt64.toNat_ofNat_of_lt' small,
    Nat.mod_eq_of_lt (by omega), Nat.mod_eq_of_lt (by omega)]

/-- The end of the last full period is computed without wrapping. -/
theorem periodEnd_toNat (period start now : UInt64) :
    (periodEnd period start now).toNat =
      start.toNat + periodsGone period start now * period.toNat :=
  toNat_periods (Nat.le_refl _)

/-- The periods of the whole time are those that ended up to some moment, and those
that began with the end of the last of them. -/
theorem periodsGone_split (period start : UInt64) {middle now : UInt64} (order : middle ≤ now) :
    periodsGone period start now =
      periodsGone period start middle +
        periodsGone period (periodEnd period start middle) now := by
  have ordered := UInt64.le_iff_toNat_le.mp order
  have within : periodsGone period start middle * period.toNat ≤ middle.toNat - start.toNat := by
    rw [periodsGone_eq]
    exact Nat.div_mul_le_self _ _
  rw [periodsGone_eq period start now, periodsGone_eq period (periodEnd period start middle) now,
    periodEnd_toNat]
  obtain still | moving := Nat.eq_zero_or_pos period.toNat
  · simp [periodsGone_eq, still]
  · generalize periodsGone period start middle = first at within ⊢
    rw [Nat.add_comm first, ← Nat.add_mul_div_right _ _ moving]
    congr 1
    omega

namespace Timer

/-! ## Counting -/

/-- Counting goes on where it stopped. -/
theorem ticks_add (period : UInt64) (modulo : UInt8) (first second : Nat) (count : Count) :
    ticks period modulo (first + second) count =
      ticks period modulo second (ticks period modulo first count) := by
  induction first generalizing count with
  | zero => rw [Nat.zero_add]; rfl
  | succ first ih =>
    rw [Nat.succ_add]
    exact ih _

/-- An earlier overflow has no effect on the counting and is not forgotten. -/
theorem ticks_overflowed (period : UInt64) (modulo : UInt8) (n : Nat) (count : Count) :
    ticks period modulo n count =
      { ticks period modulo n { count with overflowed := false } with
        overflowed :=
          count.overflowed ||
            (ticks period modulo n { count with overflowed := false }).overflowed } := by
  induction n generalizing count with
  | zero => simp [ticks]
  | succ n ih =>
    simp only [ticks]
    rw [ih (tick period modulo count), ih (tick period modulo { count with overflowed := false })]
    simp only [tick]
    split <;> simp

/-- After a number of counts the last one was that many periods later. -/
theorem ticks_lastTick (period : UInt64) (modulo : UInt8) (n : Nat) (count : Count) :
    (ticks period modulo n count).timer =
      { count.timer with lastTick := count.timer.lastTick + UInt64.ofNat n * period } := by
  induction n generalizing count with
  | zero => simp [ticks]
  | succ n ih =>
    have next : (tick period modulo count).timer =
        { count.timer with lastTick := count.timer.lastTick + period } := by
      unfold tick
      split <;> rfl
    rw [ticks, ih, next, periods_succ]

/-- A running timer ticks once for every period that is gone. -/
theorem update_of_running {control : UInt8} (running : isRunning control = true) (timer : Timer)
    (now : UInt64) (modulo counter : UInt8) :
    timer.update now control modulo counter =
      ticks (period control) modulo (periodsGone (period control) timer.lastTick now)
        { timer, counter } := by
  unfold update
  rw [if_pos running]
  rfl

/-- A timer that catches up in two stretches ends as one that catches up at once, and
it overflows in the whole time if it does in one of the stretches. -/
theorem update_update (timer : Timer) {middle now : UInt64} (order : middle ≤ now)
    (control modulo counter : UInt8) :
    let first := timer.update middle control modulo counter
    let second := first.timer.update now control modulo first.counter
    let whole := timer.update now control modulo counter
    second.timer = whole.timer ∧ second.counter = whole.counter ∧
      (first.overflowed || second.overflowed) = whole.overflowed := by
  intro first second whole
  by_cases running : isRunning control = true
  · have firstTick : first.timer.lastTick = periodEnd (period control) timer.lastTick middle := by
      unfold first
      rw [update_of_running running, ticks_lastTick]
      rfl
    have resumed : whole = ticks (period control) modulo
        (periodsGone (period control) first.timer.lastTick now) first := by
      unfold whole
      rw [update_of_running running, periodsGone_split _ _ order, ticks_add, ← firstTick,
        ← update_of_running running]
    have begun : second = ticks (period control) modulo
        (periodsGone (period control) first.timer.lastTick now)
        { first with overflowed := false } :=
      update_of_running running _ _ _ _
    -- The two differ in the overflow only: the second stretch starts without the first one's.
    rw [resumed, ticks_overflowed, ← begun]
    exact ⟨rfl, rfl, rfl⟩
  · have still : ∀ (timer : Timer) (now : UInt64) (counter : UInt8),
        timer.update now control modulo counter =
          { timer := { timer with lastTick := now }, counter } := by
      intro timer now counter
      unfold update
      rw [if_neg running]
    unfold second first whole
    rw [still, still, still]
    exact ⟨rfl, rfl, rfl⟩

end Timer

end Handheld
