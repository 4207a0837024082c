/-!
# The timer

The divider counts every 256 cycles since it was last reset. The programmable
counter counts at one of four rates and starts again from the modulo when it
overflows; it catches up whenever the machine asks it to.
-/

set_option autoImplicit false

namespace Handheld

/-- How far the later of two times lies after the earlier, zero if it does not. -/
def elapsed (start now : UInt64) : UInt64 := if start ≤ now then now - start else 0

/-- The hidden state of the timer. -/
structure Timer where
  /-- When the divider was last reset. -/
  dividerStart : UInt64 := 0
  /-- When the counter last counted. -/
  lastTick : UInt64 := 0
  deriving DecidableEq, Inhabited

namespace Timer

/-- What the divider shows. -/
def divider (timer : Timer) (now : UInt64) : UInt8 :=
  (elapsed timer.dividerStart now >>> 8).toUInt8

/-- Whether a control byte lets the counter run. -/
def isRunning (control : UInt8) : Bool := control &&& 0x04 != 0

/-- The cycles between two counts under a control byte. -/
def period (control : UInt8) : UInt64 :=
  match (control &&& 0x03).toNat with
  | 0 => 1024
  | 1 => 16
  | 2 => 64
  | _ => 256

/-- The timer and its counter, with a note whether the counter has overflowed. -/
structure Count where
  /-- The hidden state. -/
  timer : Timer
  /-- The programmable counter. -/
  counter : UInt8
  /-- Whether the counter overflowed. -/
  overflowed : Bool := false
  deriving DecidableEq, Inhabited

/-- Counts once. -/
def tick (period : UInt64) (modulo : UInt8) (count : Count) : Count :=
  let timer := { count.timer with lastTick := count.timer.lastTick + period }
  if count.counter = 0xFF then { timer, counter := modulo, overflowed := true }
  else { timer, counter := count.counter + 1, overflowed := count.overflowed }

/-- Counts a number of times. -/
def ticks (period : UInt64) (modulo : UInt8) : Nat → Count → Count
  | 0, count => count
  | n + 1, count => ticks period modulo n (tick period modulo count)

/-- Catches up with the time `now`: counts once for each period that has gone by
since the last count. While the counter stands still no count is owed. -/
def update (timer : Timer) (now : UInt64) (control modulo counter : UInt8) : Count :=
  if isRunning control then
    let period := period control
    ticks period modulo (elapsed timer.lastTick now / period).toNat { timer, counter }
  else
    { timer := { timer with lastTick := now }, counter }

end Timer

end Handheld
