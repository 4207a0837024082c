import Handheld.Proofs.Device.Timer

/-!
# What the timer has counted

The counter goes up to 255, and the next count puts the modulo there. From then on it runs in
laps from the modulo to 255, so what it shows after any number of counts is a remainder, and it
has overflowed as soon as the counts do not fit above the value it started with (`Counted`).

The timer remembers when it counted last, and not when it was looked at. So the part of a period
that has gone by when it catches up is still there when it catches up again, whatever the rate is
then. While it stands still it forgets the time, and a stretch in which it did is never made up
for.
-/

set_option autoImplicit false

namespace Handheld.Timer

/-! ## What the counter shows -/

/-- What a counter shows after a number of counts: past its end it runs in laps from the modulo
on. -/
def shownAfter (modulo counter n : Nat) : Nat :=
  if counter + n < 256 then counter + n
  else modulo + (counter + n - 256) % (256 - modulo)

/-- A counter that does not reach 256 shows its start and the ticks since. -/
theorem shownAfter_of_lt {modulo counter n : Nat} (room : counter + n < 256) :
    shownAfter modulo counter n = counter + n :=
  if_pos room

/-- From 256 on a counter shows its modulo and the ticks since, in laps of what lies above the
modulo. -/
theorem shownAfter_of_past {modulo counter n past : Nat} (reached : counter + n = 256 + past) :
    shownAfter modulo counter n = modulo + past % (256 - modulo) := by
  have full : ¬ counter + n < 256 := by omega
  have left : counter + n - 256 = past := by omega
  rw [shownAfter, if_neg full, left]

/-- One count more goes up by one, or from the end back to the modulo. -/
theorem shownAfter_succ {modulo : Nat} (inside : modulo < 256) (counter n : Nat) :
    shownAfter modulo counter (n + 1) =
      if shownAfter modulo counter n = 255 then modulo else shownAfter modulo counter n + 1 := by
  by_cases first : counter + n < 256
  · rw [shownAfter_of_lt first]
    by_cases last : counter + n = 255
    · have overflow : counter + (n + 1) = 256 + 0 := by omega
      rw [shownAfter_of_past overflow, if_pos last, Nat.zero_mod, Nat.add_zero]
    · have room : counter + (n + 1) < 256 := by omega
      rw [shownAfter_of_lt room, if_neg last, Nat.add_assoc]
  · obtain ⟨past, reached⟩ := Nat.exists_eq_add_of_le (Nat.not_lt.mp first)
    have next : counter + (n + 1) = 256 + (past + 1) := by omega
    have within : past % (256 - modulo) < 256 - modulo := Nat.mod_lt _ (by omega)
    rw [shownAfter_of_past reached, shownAfter_of_past next, ← Nat.mod_add_mod past]
    -- A lap ends where the remainder has no room for one more.
    by_cases ends : past % (256 - modulo) + 1 = 256 - modulo
    · have last : modulo + past % (256 - modulo) = 255 := by omega
      rw [ends, Nat.mod_self, if_pos last, Nat.add_zero]
    · have room : ¬ modulo + past % (256 - modulo) = 255 := by omega
      rw [Nat.mod_eq_of_lt (by omega), if_neg room, Nat.add_assoc]

/-- A tick adds one, or reloads the modulo where that would overflow. -/
theorem toNat_tick (period : UInt64) (modulo : UInt8) (count : Count) :
    (tick period modulo count).counter.toNat =
      if count.counter.toNat = 255 then modulo.toNat else count.counter.toNat + 1 := by
  have bound := count.counter.toNat_lt
  have full : count.counter = 0xFF ↔ count.counter.toNat = 255 := UInt8.toNat_inj.symm
  unfold tick
  by_cases last : count.counter = 0xFF
  · rw [if_pos last, if_pos (full.mp last)]
  · have room : count.counter.toNat ≠ 255 := fun same => last (full.mpr same)
    rw [if_neg last, if_neg room, UInt8.toNat_add]
    exact Nat.mod_eq_of_lt (show count.counter.toNat + 1 < 256 by omega)

/-- The last of a number of counts is made where the others have led. -/
theorem ticks_succ (period : UInt64) (modulo : UInt8) (n : Nat) (count : Count) :
    ticks period modulo (n + 1) count = tick period modulo (ticks period modulo n count) :=
  ticks_add period modulo n 1 count

/-- So many ticks leave the counter at what it shows after as many. -/
theorem toNat_ticks (period : UInt64) (modulo : UInt8) (n : Nat) (count : Count) :
    (ticks period modulo n count).counter.toNat =
      shownAfter modulo.toNat count.counter.toNat n := by
  induction n with
  | zero =>
    have bound := count.counter.toNat_lt
    exact (if_pos bound).symm
  | succ n ih => rw [ticks_succ, toNat_tick, ih, shownAfter_succ modulo.toNat_lt]

/-- A tick overflows exactly at 255. -/
theorem tick_overflowed (period : UInt64) (modulo : UInt8) (count : Count) :
    (tick period modulo count).overflowed = true ↔
      count.overflowed = true ∨ count.counter.toNat = 255 := by
  have full : count.counter = 0xFF ↔ count.counter.toNat = 255 := UInt8.toNat_inj.symm
  rw [← full]
  unfold tick
  split
  next last => exact iff_of_true rfl (.inr last)
  next room => exact (or_iff_left room).symm

/-- A counter overflows with the count for which there is no room above its first value. -/
theorem ticks_overflows (period : UInt64) (modulo : UInt8) (n : Nat) (timer : Timer)
    (counter : UInt8) :
    (ticks period modulo n { timer, counter }).overflowed = true ↔ 256 ≤ counter.toNat + n := by
  have bound := counter.toNat_lt
  induction n with
  | zero => exact iff_of_false Bool.false_ne_true (by omega)
  | succ n ih =>
    rw [ticks_succ, tick_overflowed, toNat_ticks]
    refine (or_congr_left ih).trans ?_
    by_cases room : counter.toNat + n < 256
    · rw [shownAfter_of_lt room]
      omega
    · exact iff_of_true (.inl (by omega)) (by omega)

/-! ## Catching up -/

/-- A timer has counted `n` times, once for each of as many periods from its last count on, and
its counter has gone up by one each time, or from 255 back to the modulo. -/
structure Counted (n : Nat) (period : UInt64) (modulo : UInt8) (timer : Timer) (counter : UInt8)
    (next : Count) : Prop where
  divider : next.timer.dividerStart = timer.dividerStart
  lastTick : next.timer.lastTick.toNat = timer.lastTick.toNat + n * period.toNat
  shown : next.counter.toNat =
    if counter.toNat + n < 256 then counter.toNat + n
    else modulo.toNat + (counter.toNat + n - 256) % (256 - modulo.toNat)
  overflows : next.overflowed = true ↔ 256 ≤ counter.toNat + n

/-- A running timer counts the whole periods since its last tick. -/
theorem counted_update {control : UInt8} (running : isRunning control = true) (timer : Timer)
    (now : UInt64) (modulo counter : UInt8) :
    Counted ((now.toNat - timer.lastTick.toNat) / (period control).toNat) (period control) modulo
      timer counter (timer.update now control modulo counter) := by
  rw [← periodsGone_eq, update_of_running running]
  constructor
  · rw [ticks_lastTick]
  · rw [ticks_lastTick]
    exact periodEnd_toNat (period control) timer.lastTick now
  · exact toNat_ticks ..
  · exact ticks_overflows ..

/-- A timer that stands still forgets the time. -/
theorem update_of_still {control : UInt8} (still : isRunning control = false) (timer : Timer)
    (now : UInt64) (modulo counter : UInt8) :
    timer.update now control modulo counter =
      { timer := { timer with lastTick := now }, counter } :=
  if_neg (Bool.eq_false_iff.mp still)

/-- The part of a period that has gone by: none while the timer stands still. -/
def begun (timer : Timer) (control : UInt8) (now : UInt64) : Nat :=
  if isRunning control then (now.toNat - timer.lastTick.toNat) % (period control).toNat else 0

/-- A timer that has caught up owes no more than the part of a period that has gone by. -/
theorem lastTick_update (timer : Timer) {now : UInt64} (order : timer.lastTick ≤ now)
    (control modulo counter : UInt8) :
    (timer.update now control modulo counter).timer.lastTick.toNat + timer.begun control now =
      now.toNat := by
  unfold begun
  split
  next running =>
    have ordered := UInt64.le_iff_toNat_le.mp order
    have parts := Nat.div_add_mod' (now.toNat - timer.lastTick.toNat) (period control).toNat
    rw [(counted_update running timer now modulo counter).lastTick]
    omega
  next still => rw [update_of_still (Bool.eq_false_iff.mpr still), Nat.add_zero]

/-- A timer that runs counts once for every period that ends up to the time it catches up with,
from its last count on, and a timer that stands still counts nothing and forgets the time. When
it catches up again, at whatever rate, it counts the time since together with the part of a
period that had gone by, and that is none after a stretch in which it stood still. -/
theorem counting_exact (timer : Timer) {now : UInt64} (order : timer.lastTick ≤ now)
    (control modulo counter : UInt8) :
    let next := timer.update now control modulo counter
    (isRunning control = true →
      Counted ((now.toNat - timer.lastTick.toNat) / (period control).toNat) (period control) modulo
        timer counter next) ∧
    (isRunning control = false →
      next = { timer := { timer with lastTick := now }, counter, overflowed := false }) ∧
    ∀ later control' modulo', now ≤ later → isRunning control' = true →
      Counted ((timer.begun control now + (later.toNat - now.toNat)) / (period control').toNat)
        (period control') modulo' next.timer next.counter
        (next.timer.update later control' modulo' next.counter) := by
  intro next
  refine ⟨?_, ?_, ?_⟩
  · intro running
    exact counted_update running timer now modulo counter
  · intro still
    exact update_of_still still timer now modulo counter
  · intro later control' modulo' orderLater running
    have ordered := UInt64.le_iff_toNat_le.mp orderLater
    have caughtUp : next.timer.lastTick.toNat + timer.begun control now = now.toNat :=
      timer.lastTick_update order control modulo counter
    have owed : timer.begun control now + (later.toNat - now.toNat) =
        later.toNat - next.timer.lastTick.toNat := by
      omega
    rw [owed]
    exact counted_update running next.timer later modulo' next.counter

/-- Some laps of six counts, then a lower rate: the 13 cycles left over and 1011 more are a full
period of 1024. -/
theorem counting_exact_of_laps :
    let timer : Timer := { lastTick := 100 }
    let next := timer.update 5009 0x05 0xFA 0xFE
    let last := next.timer.update 6020 0x04 0x00 next.counter
    timer.lastTick ≤ 5009 ∧ isRunning 0x05 = true ∧ next.counter.toNat = 254 ∧
      next.timer.lastTick.toNat = 4996 ∧ next.overflowed = true ∧
      last.counter.toNat = 255 ∧ last.timer.lastTick.toNat = 6020 := by
  intro timer next last
  have order : timer.lastTick ≤ 5009 := by decide
  obtain ⟨running, -, again⟩ := timer.counting_exact order 0x05 0xFA 0xFE
  have first := running rfl
  have second := again 6020 0x04 0x00 (by decide) rfl
  have shown : next.counter.toNat = 254 := first.shown.trans (by decide)
  have ticked : next.timer.lastTick.toNat = 4996 := first.lastTick.trans (by decide)
  refine ⟨order, rfl, shown, ticked, first.overflows.mpr (by decide), ?_, ?_⟩
  · exact second.shown.trans (by rw [shown]; decide)
  · exact second.lastTick.trans (by rw [ticked]; decide)

end Handheld.Timer
