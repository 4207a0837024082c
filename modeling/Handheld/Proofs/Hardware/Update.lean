import Handheld.Proofs.Hardware.Devices

/-!
# Catching up does not depend on how often it is done

The devices catch up from wherever they are. A machine may let them do so after every
instruction, or now and then: once they have caught up with some moment, what they
show at a later one is the same whether they are asked in between or not. Nothing that
is raised is lost at the moment in between, and nothing is raised twice.
-/

set_option autoImplicit false

namespace Handheld.Hardware

/-- The status register is settled, unless the screen is off. -/
def Devices.Settled (devices : Devices) (controls : Controls) : Prop :=
  controls.lcd &&& 0x80 ≠ 0 → Lcd.Settled controls.awaited devices.lcd

/-- Devices that have been caught up are settled. -/
theorem Devices.settled_update (devices : Devices) (controls : Controls) (now : UInt64) :
    (devices.update controls now).1.Settled controls :=
  fun on => Lcd.settled_update on ..

/-- What is raised in two stretches is raised in the whole time. -/
theorem requests_or (requests first second : UInt8) (timer timer' serial serial' : Bool) :
    requests ||| requestIf timer .timer ||| requestIf serial .serial ||| (first &&& 0x1F) |||
          requestIf timer' .timer ||| requestIf serial' .serial ||| (second &&& 0x1F) =
      requests ||| requestIf (timer || timer') .timer ||| requestIf (serial || serial') .serial |||
        ((first ||| second) &&& 0x1F) := by
  rw [← requestIf_or, ← requestIf_or, or_and_mask]
  ac_rfl

/-- A transfer that is completed in one of two stretches is no longer under way. -/
theorem transfer_or (transfer : UInt8) (first second : Bool) :
    (if second then (if first then transfer &&& ~~~ 0x80 else transfer) &&& ~~~ 0x80
      else if first then transfer &&& ~~~ 0x80 else transfer) =
      if first || second then transfer &&& ~~~ 0x80 else transfer := by
  cases first <;> cases second <;> simp [UInt8.and_assoc]

/-- Devices that are settled and catch up in two stretches end as if they caught up at
once, and a frame is finished in the whole time if it is in one of the stretches. -/
theorem Devices.update_update (devices : Devices) (controls : Controls) {middle now : UInt64}
    (order : middle ≤ now) (settled : devices.Settled controls) :
    let first := devices.update controls middle
    let second := first.1.update controls now
    let whole := devices.update controls now
    second.1 = whole.1 ∧ (first.2 || second.2) = whole.2 := by
  intro first second whole
  let count := devices.timer.update middle controls.timer controls.modulo devices.counter
  let count' := count.timer.update now controls.timer controls.modulo count.counter
  let shifted := devices.serial.update middle devices.data
  let shifted' := shifted.1.update now shifted.2.1
  let drawn := Lcd.update devices.lineStart middle controls.speed controls.lcd controls.awaited
    devices.lcd
  let drawn' := Lcd.update drawn.lineStart now controls.speed controls.lcd controls.awaited
    drawn.registers
  obtain ⟨timer, counter, overflowed⟩ :=
    devices.timer.update_update order controls.timer controls.modulo devices.counter
  obtain ⟨serial, data, completed⟩ := devices.serial.update_update order devices.data
  -- Only the screen has to be settled: otherwise it could notice in the middle that it is on
  -- the line waited for, and leave that line unnoticed when it catches up at once.
  have lcd : _ = Lcd.after drawn' drawn.interrupts drawn.frame :=
    Lcd.update_update devices.lineStart order controls.speed controls.lcd controls.awaited
      devices.lcd settled
  have transfer : second.1.transfer = whole.1.transfer := by
    have joined := transfer_or devices.transfer shifted.2.2 shifted'.2.2
    rw [completed] at joined
    exact joined
  have requests : second.1.requests = whole.1.requests := by
    have joined := requests_or devices.requests drawn.interrupts drawn'.interrupts
      count.overflowed count'.overflowed shifted.2.2 shifted'.2.2
    have raised : drawn.interrupts ||| drawn'.interrupts = _ :=
      (congrArg LcdProgress.interrupts lcd).symm
    exact joined.trans (by rw [overflowed, completed, raised]; rfl)
  refine ⟨Devices.ext rfl timer counter serial data transfer ?_ ?_ requests, ?_⟩
  · exact (congrArg LcdProgress.lineStart lcd).symm
  · exact (congrArg LcdProgress.registers lcd).symm
  · exact (congrArg LcdProgress.frame lcd).symm

/-- Once the devices have caught up with `start`, what they are at a later time does not
depend on whether they catch up with some moment before it, and neither does whether
a frame was finished. -/
theorem catching_up_splits (hw : Hardware) (speed : UInt8) (start : UInt64) {middle now : UInt64}
    (order : middle ≤ now) :
    let begun := (hw.update start speed).1
    let first := begun.update middle speed
    let second := first.1.update now speed
    let whole := begun.update now speed
    second.1 = whole.1 ∧ (first.2 || second.2) = whole.2 := by
  intro begun first second whole
  have settled : begun.devices.Settled (begun.controls speed) := by
    unfold begun
    rw [update_eq, devices_withDevices, controls_withDevices]
    exact hw.devices.settled_update (hw.controls speed) start
  obtain ⟨devices, frame⟩ := begun.devices.update_update (begun.controls speed) order settled
  unfold second first whole
  simp only [update_eq, devices_withDevices, controls_withDevices, withDevices_withDevices]
  exact ⟨congrArg begun.withDevices devices, frame⟩

/-- The screen enters two lines in each stretch, and a frame is never finished. -/
theorem catching_up_splits_four_lines :
    let hw := (assemble .empty #[]).setStored .lcdc 0x80
    let begun := (hw.update 0 1).1
    let first := begun.update 1000 1
    let second := first.1.update 1900 1
    let whole := begun.update 1900 1
    (1000 : UInt64) ≤ 1900 ∧ first.1.stored .ly = 2 ∧ second.1.stored .ly = 4 ∧
      second.1 = whole.1 ∧ (first.2 || second.2) = whole.2 := by
  intro hw begun first second whole
  have order : (1000 : UInt64) ≤ 1900 := by decide
  exact ⟨order, by decide, by decide, catching_up_splits hw 1 0 order⟩

end Handheld.Hardware
