import Handheld.Proofs.Hardware.Devices

/-!
# What catching up can change

For each device, where it stands once it has caught up: how many lines the screen has
entered and when the last of them began, which bits of the registers cannot have
changed, and that no device has run ahead of the time it was told. `CaughtUp` puts
this together for all of them.
-/

set_option autoImplicit false

namespace Handheld

/-- No period that has gone by ends in the future. -/
theorem periods_le {period start now : UInt64} (order : start ≤ now) {n : Nat}
    (gone : n ≤ periodsGone period start now) : start + UInt64.ofNat n * period ≤ now := by
  have ordered := UInt64.le_iff_toNat_le.mp order
  rw [periodsGone_eq] at gone
  have within : n * period.toNat ≤ now.toNat - start.toNat :=
    Nat.le_trans (Nat.mul_le_mul_right _ gone) (Nat.div_mul_le_self _ _)
  have few : n ≤ now.toNat - start.toNat := Nat.le_trans gone (Nat.div_le_self _ _)
  have := now.toNat_lt
  have small : n < UInt64.size :=
    Nat.lt_of_le_of_lt (Nat.le_trans few (Nat.sub_le _ _)) now.toNat_lt
  rw [UInt64.le_iff_toNat_le, UInt64.toNat_add, UInt64.toNat_mul, UInt64.toNat_ofNat_of_lt' small,
    Nat.mod_eq_of_lt (by omega), Nat.mod_eq_of_lt (by omega)]
  omega

/-- The last whole period that has begun is not in the future. -/
theorem periodEnd_le (period : UInt64) {start now : UInt64} (order : start ≤ now) :
    periodEnd period start now ≤ now :=
  periods_le order (Nat.le_refl _)

/-- Catching the timer up leaves the start of the divider alone. -/
theorem Timer.update_dividerStart (timer : Timer) (now : UInt64)
    (control modulo counter : UInt8) :
    (timer.update now control modulo counter).timer.dividerStart = timer.dividerStart := by
  by_cases running : isRunning control = true
  · rw [update_of_running running, ticks_lastTick]
  · unfold update
    rw [if_neg running]

/-- The timer never takes a tick to have happened later than now. -/
theorem Timer.update_lastTick_le {timer : Timer} {now : UInt64} (order : timer.lastTick ≤ now)
    (control modulo counter : UInt8) :
    (timer.update now control modulo counter).timer.lastTick ≤ now := by
  by_cases running : isRunning control = true
  · rw [update_of_running running, ticks_lastTick]
    exact periodEnd_le (period control) order
  · unfold update
    rw [if_neg running]
    exact UInt64.le_refl now

/-- Shifting what is due only lowers the number of bits that are left. -/
theorem SerialInterface.shiftDue_bitsLeft_le (now : UInt64) (bits : Nat) (serial : SerialInterface)
    (data : UInt8) (left : serial.bitsLeft = bits) :
    (shiftDue now serial data bits).1.bitsLeft ≤ bits := by
  induction bits generalizing serial data with
  | zero => exact Nat.le_of_eq left
  | succ bits ih =>
    unfold shiftDue
    split
    · dsimp only
      split
      · exact Nat.le_succ bits
      · have shifted := ih { serial with
          bitsLeft := bits, nextBit := serial.nextBit + serial.bitTime } ((data <<< 1) ||| 0x01) rfl
        exact Nat.le_succ_of_le shifted
    · exact Nat.le_of_eq left

namespace Lcd

/-! ## The line -/

/-- The next line is one further, around the frame. -/
theorem nextLine_line (lineTime : UInt64) (awaited : UInt8) (progress : LcdProgress) :
    (nextLine lineTime awaited progress).registers.line =
      (progress.registers.line + 1) % linesPerFrame := by
  rw [nextLine_eq, frameNoted_registers, compareLine_line]
  rfl

/-- Within the frame, the next line counts modulo 154. -/
theorem toNat_nextLine {line : UInt8} (inside : line.toNat < 154) :
    ((line + 1) % linesPerFrame).toNat = (line.toNat + 1) % 154 := by
  have room : (line.toNat + 1) % 256 = line.toNat + 1 := Nat.mod_eq_of_lt (by omega)
  show (line.toNat + 1) % 256 % 154 = _
  rw [room]

/-- So many lines later, the line has advanced by as many modulo 154. -/
theorem nextLines_line (lineTime : UInt64) (awaited : UInt8) (n : Nat) {progress : LcdProgress}
    (inside : progress.registers.line.toNat < 154) :
    (nextLines lineTime awaited n progress).registers.line.toNat =
      (progress.registers.line.toNat + n) % 154 := by
  induction n generalizing progress with
  | zero => exact (Nat.mod_eq_of_lt inside).symm
  | succ n ih =>
    have next : (nextLine lineTime awaited progress).registers.line.toNat =
        (progress.registers.line.toNat + 1) % 154 := by
      rw [nextLine_line, toNat_nextLine inside]
    have still : (nextLine lineTime awaited progress).registers.line.toNat < 154 := by
      rw [next]
      exact Nat.mod_lt _ (by decide)
    rw [nextLines, ih still, next]
    omega

/-- A screen that is on has entered one line for each line time that has gone by. -/
theorem update_line {control : UInt8} (on : control &&& 0x80 ≠ 0) (lineStart now : UInt64)
    (speed awaited : UInt8) {registers : LcdRegisters} (inside : registers.line.toNat < 154) :
    let lineTime := dotsPerLine * speedFactor speed
    let progress := update lineStart now speed control awaited registers
    progress.lineStart = periodEnd lineTime lineStart now ∧
      progress.registers.line.toNat =
        (registers.line.toNat + periodsGone lineTime lineStart now) % 154 := by
  intro lineTime progress
  have told : progress = tellMode (speedFactor speed) now
      (catchUp lineTime awaited (periodsGone lineTime lineStart now) { lineStart, registers }) :=
    update_of_on on ..
  rw [told]
  constructor
  · exact catchUp_lineStart ..
  · show (compareLine awaited (nextLines ..)).registers.line.toNat = _
    rw [compareLine_line]
    exact nextLines_line lineTime awaited _ inside

/-- Catching up keeps the line within the frame. -/
theorem update_line_lt (lineStart now : UInt64) (speed control awaited : UInt8)
    {registers : LcdRegisters} (inside : registers.line.toNat < 154) :
    (update lineStart now speed control awaited registers).registers.line.toNat < 154 := by
  by_cases on : control &&& 0x80 ≠ 0
  · rw [(update_line on lineStart now speed awaited inside).2]
    exact Nat.mod_lt _ (by decide)
  · rw [update_of_off (Decidable.not_not.mp on)]
    exact (by decide : 0 < 154)

/-- A line never starts in the future. -/
theorem update_lineStart_le {lineStart now : UInt64} (order : lineStart ≤ now)
    (speed control awaited : UInt8) (registers : LcdRegisters) :
    (update lineStart now speed control awaited registers).lineStart ≤ now := by
  by_cases on : control &&& 0x80 ≠ 0
  · rw [update_of_on on]
    show (catchUp ..).lineStart ≤ now
    rw [catchUp_lineStart]
    exact periodEnd_le _ order
  · rw [update_of_off (Decidable.not_not.mp on)]
    exact UInt64.le_refl now

/-! ## The status -/

/-- A comparison writes no bit but the one that tells its outcome. -/
theorem compareLine_status (awaited : UInt8) (progress : LcdProgress) :
    (compareLine awaited progress).registers.status &&& ~~~ coincidenceBit =
      progress.registers.status &&& ~~~ coincidenceBit := by
  by_cases same : progress.registers.line = awaited
  · rw [compareLine_here _ same]
    show (progress.registers.status ||| coincidenceBit) &&& ~~~ coincidenceBit = _
    rw [or_and_mask, show coincidenceBit &&& ~~~ coincidenceBit = 0 from rfl, UInt8.or_zero]
  · rw [compareLine_elsewhere _ same]
    exact (UInt8.and_assoc ..).trans (by rw [UInt8.and_self])

/-- Moving on a line touches no status bit but the coincidence bit. -/
theorem nextLine_status (lineTime : UInt64) (awaited : UInt8) (progress : LcdProgress) :
    (nextLine lineTime awaited progress).registers.status &&& ~~~ coincidenceBit =
      progress.registers.status &&& ~~~ coincidenceBit := by
  rw [nextLine_eq, frameNoted_registers, compareLine_status]
  rfl

/-- Moving on any number of lines touches no status bit but the coincidence bit. -/
theorem nextLines_status (lineTime : UInt64) (awaited : UInt8) (n : Nat)
    (progress : LcdProgress) :
    (nextLines lineTime awaited n progress).registers.status &&& ~~~ coincidenceBit =
      progress.registers.status &&& ~~~ coincidenceBit := by
  induction n generalizing progress with
  | zero => rfl
  | succ n ih => rw [nextLines, ih, nextLine_status]

/-- The mode takes up the three low bits and no others. -/
theorem modeAt_upper (line : UInt8) (dot : UInt64) : modeAt line dot &&& 0xF8 = 0 := by
  have split : modeAt line dot &&& ~~~ 0x03 &&& 0xF8 = modeAt line dot &&& 0xF8 :=
    UInt8.and_assoc ..
  rw [← split, modeAt_mask, UInt8.zero_and]

/-- Bits 3 to 7 of the status register are never written. -/
theorem update_upper (lineStart now : UInt64) (speed control awaited : UInt8)
    (registers : LcdRegisters) :
    (update lineStart now speed control awaited registers).registers.status &&& 0xF8 =
      registers.status &&& 0xF8 := by
  by_cases on : control &&& 0x80 ≠ 0
  · let reached := catchUp (dotsPerLine * speedFactor speed) awaited
      (periodsGone (dotsPerLine * speedFactor speed) lineStart now) { lineStart, registers }
    have kept : reached.registers.status &&& ~~~ coincidenceBit =
        registers.status &&& ~~~ coincidenceBit := by
      unfold reached catchUp
      rw [compareLine_status, nextLines_status]
    rw [update_of_on on]
    show ((reached.registers.status &&& ~~~ 0x03) ||| modeAt _ _) &&& 0xF8 = _
    rw [or_and_mask, modeAt_upper, UInt8.or_zero, UInt8.and_assoc]
    exact and_eq_of_and_eq kept rfl
  · rw [update_of_off (Decidable.not_not.mp on)]
    exact UInt8.and_assoc ..

end Lcd

namespace Hardware

/-! ## All devices -/

/-- A byte of the devices is shown in its register, the rest of the registers stay. -/
theorem stored_withDevices (hw : Hardware) (devices : Devices) (r : DeviceRegister) :
    (hw.withDevices devices).stored r =
      match r with
      | .tima => devices.counter
      | .sb => devices.data
      | .sc => devices.transfer
      | .ly => devices.lcd.line
      | .stat => devices.lcd.status
      | .irq => devices.requests
      | _ => hw.stored r := by
  simp only [withDevices, stored_setStored]
  cases r <;> rfl

/-- Storing a register leaves the clock, the counters of the devices and the cartridge alone. -/
theorem setStored_parts (hw : Hardware) (r : DeviceRegister) (value : UInt8) :
    let next := hw.setStored r value
    next.now = hw.now ∧ next.timer = hw.timer ∧ next.serial = hw.serial ∧
      next.lineStart = hw.lineStart ∧ next.color = hw.color ∧ next.cartridge = hw.cartridge :=
  ⟨rfl, rfl, rfl, rfl, rfl, rfl⟩

/-- After an exchange of the devices the counters are theirs, and the cartridge stays. -/
theorem withDevices_parts (hw : Hardware) (devices : Devices) :
    let next := hw.withDevices devices
    next.now = devices.now ∧ next.timer = devices.timer ∧ next.serial = devices.serial ∧
      next.lineStart = devices.lineStart ∧ next.color = hw.color ∧
      next.cartridge = hw.cartridge := by
  simp only [withDevices, setStored_parts, and_self]

/-- Storing a register leaves the boot image, the enabled interrupts and the reboot latch alone.
-/
theorem setStored_rest (hw : Hardware) (r : DeviceRegister) (value : UInt8) :
    let next := hw.setStored r value
    next.memories.boot = hw.memories.boot ∧
      next.memories.interruptEnable = hw.memories.interruptEnable ∧
      next.rebootRequested = hw.rebootRequested :=
  ⟨rfl, rfl, rfl⟩

/-- What is no part of the devices stays when these are exchanged. -/
theorem withDevices_rest (hw : Hardware) (devices : Devices) :
    let next := hw.withDevices devices
    next.memories.boot = hw.memories.boot ∧
      next.memories.interruptEnable = hw.memories.interruptEnable ∧
      next.rebootRequested = hw.rebootRequested := by
  simp only [withDevices, setStored_rest, and_self]

/-- What catching up with the time `now` has made of the hardware. -/
structure CaughtUp (hw next : Hardware) (now : UInt64) : Prop where
  time : next.now = now
  color : next.color = hw.color
  cartridge : next.cartridge = hw.cartridge
  boot : next.memories.boot = hw.memories.boot
  divider : next.timer.dividerStart = hw.timer.dividerStart
  lastTick : hw.timer.lastTick ≤ now → next.timer.lastTick ≤ now
  lineStart : hw.lineStart ≤ now → next.lineStart ≤ now
  bits : next.serial.bitsLeft ≤ hw.serial.bitsLeft
  line : (hw.stored .ly).toNat < 154 → (next.stored .ly).toNat < 154
  status : next.stored .stat &&& 0x80 = hw.stored .stat &&& 0x80
  requests : next.stored .irq &&& 0xE0 = hw.stored .irq &&& 0xE0
  stored : ∀ r, r.catchesUp = false → next.stored r = hw.stored r

/-- A request sets none of the three highest bits. -/
theorem requestIf_high (reason : Bool) (source : Interrupt) :
    requestIf reason source &&& 0xE0 = 0 := by
  cases reason <;> cases source <;> rfl

/-- Where the devices stand once they have caught up, each by its own update. -/
theorem Devices.update_parts (devices : Devices) (controls : Controls) (now : UInt64) :
    let next := (devices.update controls now).1
    let count := devices.timer.update now controls.timer controls.modulo devices.counter
    let shifted := devices.serial.update now devices.data
    let progress := Lcd.update devices.lineStart now controls.speed controls.lcd controls.awaited
      devices.lcd
    next.now = now ∧ next.timer = count.timer ∧ next.serial = shifted.1 ∧
      next.lineStart = progress.lineStart ∧ next.lcd = progress.registers ∧
      next.requests =
        devices.requests ||| requestIf count.overflowed .timer ||| requestIf shifted.2.2 .serial |||
          (progress.interrupts &&& 0x1F) :=
  ⟨rfl, rfl, rfl, rfl, rfl, rfl⟩

/-- Catching up leaves the hardware caught up. -/
theorem caughtUp_update (hw : Hardware) (now : UInt64) (speed : UInt8) :
    CaughtUp hw (hw.update now speed).1 now := by
  obtain ⟨time, timer, serial, lineStart, lcd, requests⟩ :=
    hw.devices.update_parts (hw.controls speed) now
  rw [update_eq]
  generalize (hw.devices.update (hw.controls speed) now).1 = next at *
  obtain ⟨nextTime, nextTimer, nextSerial, nextStart, color, cartridge⟩ := hw.withDevices_parts next
  have same : ∀ r, (hw.withDevices next).stored r = _ := hw.stored_withDevices next
  constructor
  · exact nextTime.trans time
  · exact color
  · exact cartridge
  · exact (hw.withDevices_rest next).1
  · rw [nextTimer, timer]
    exact Timer.update_dividerStart ..
  · intro order
    rw [nextTimer, timer]
    exact Timer.update_lastTick_le order ..
  · intro order
    rw [nextStart, lineStart]
    exact Lcd.update_lineStart_le order ..
  · rw [nextSerial, serial]
    exact SerialInterface.shiftDue_bitsLeft_le now _ hw.serial _ rfl
  · intro inside
    rw [same, lcd]
    exact Lcd.update_line_lt _ _ _ _ _ inside
  · rw [same, lcd]
    -- The upper bit of the status tells neither the mode nor a coincidence.
    have upper := Lcd.update_upper hw.lineStart now speed (hw.stored .lcdc) (hw.stored .lyc)
      hw.devices.lcd
    exact and_eq_of_and_eq upper rfl
  · have none : ∀ raised : UInt8, raised &&& 0x1F &&& 0xE0 = 0 := by
      intro raised
      exact (UInt8.and_assoc ..).trans UInt8.and_zero
    rw [same, requests]
    simp only [or_and_mask, requestIf_high, none, UInt8.or_zero]
    rfl
  · intro r other
    rw [same]
    cases r <;> first | rfl | contradiction

/-- While the screen is on, its line moves on by the lines that have gone by. -/
theorem update_line (hw : Hardware) (now : UInt64) (speed : UInt8)
    (on : hw.stored .lcdc &&& 0x80 ≠ 0) (inside : (hw.stored .ly).toNat < 154) :
    let lineTime := Lcd.dotsPerLine * Lcd.speedFactor speed
    let next := (hw.update now speed).1
    next.lineStart = periodEnd lineTime hw.lineStart now ∧
      (next.stored .ly).toNat =
        ((hw.stored .ly).toNat + periodsGone lineTime hw.lineStart now) % 154 := by
  intro lineTime next
  obtain ⟨-, -, -, lineStart, lcd, -⟩ := hw.devices.update_parts (hw.controls speed) now
  have shown : hw.devices.lcd.line.toNat < 154 := inside
  obtain ⟨start, line⟩ := Lcd.update_line on hw.lineStart now speed (hw.stored .lyc) shown
  unfold next
  rw [update_eq]
  constructor
  · rw [(hw.withDevices_parts _).2.2.2.1, lineStart]
    exact start
  · rw [stored_withDevices, lcd]
    exact line

/-- The timer and the serial interface catch up before the screen and leave it alone. -/
theorem updateSerial_updateTimer_screen (hw : Hardware) :
    let next := hw.updateTimer.updateSerial
    next.lineStart = hw.lineStart ∧ next.now = hw.now ∧ next.stored .ly = hw.stored .ly ∧
      next.stored .stat = hw.stored .stat ∧
      ∀ r, r.catchesUp = false → next.stored r = hw.stored r := by
  intro next
  let devices := (hw.devices.updateTimer (hw.controls 1)).updateSerial
  have both : next = hw.withDevices devices := by
    unfold next
    rw [updateTimer_eq _ 1, updateSerial_eq, devices_withDevices, withDevices_withDevices]
  obtain ⟨time, -, -, start, -, -⟩ := hw.withDevices_parts devices
  rw [both]
  refine ⟨start, time, ?_, ?_, ?_⟩
  · rw [stored_withDevices]
    rfl
  · rw [stored_withDevices]
    rfl
  · intro r other
    rw [stored_withDevices]
    cases r <;> first | rfl | contradiction

end Hardware

end Handheld
