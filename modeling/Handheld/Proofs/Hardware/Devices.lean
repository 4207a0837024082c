import Handheld.Hardware.Bus
import Handheld.Proofs.Device.Lcd
import Handheld.Proofs.Device.SerialInterface

/-!
# The devices by themselves

Catching up changes a small part of the hardware: the hidden states of the devices, the
time they have caught up with, and six of the device registers. The rest is left alone,
and so are the registers that control the devices. This part is looked at by itself
here. It can be taken out of the hardware and put back, and the hardware catches up
just as it does.
-/

set_option autoImplicit false

namespace Handheld.Hardware

/-! ## Stored bytes -/

/-- No two device registers share an offset. -/
theorem DeviceRegister.offset_injective {r q : DeviceRegister} (same : r.offset = q.offset) :
    r = q := by
  have found := r.ofOffset?_offset
  rw [same, q.ofOffset?_offset] at found
  exact (Option.some.inj found).symm

/-- A stored byte is replaced in its own register and no other. -/
theorem stored_setStored (hw : Hardware) (r q : DeviceRegister) (value : UInt8) :
    (hw.setStored r value).stored q = if r = q then value else hw.stored q := by
  have apart : (r.offset : Nat) = q.offset ↔ r = q :=
    ⟨fun same => DeviceRegister.offset_injective (Fin.ext same), fun same => by rw [same]⟩
  show (hw.memories.io.set r.offset.val value r.offset.isLt)[q.offset.val] = _
  rw [Vector.getElem_set]
  simp only [apart]
  rfl

/-- Storing what is stored already changes nothing. -/
theorem setStored_of_stored {hw : Hardware} {r : DeviceRegister} {value : UInt8}
    (same : hw.stored r = value) : hw.setStored r value = hw := by
  subst same
  have same : hw.memories.io.set r.offset.val hw.memories.io[r.offset.val] r.offset.isLt =
      hw.memories.io := Vector.set_getElem_self _
  show ({ hw with memories := { hw.memories with io := _ } } : Hardware) = hw
  rw [show hw.stored r = hw.memories.io[r.offset.val] from rfl, same]

/-- The second of two writes to one register is the one that stands. -/
theorem setStored_setStored (hw : Hardware) (r : DeviceRegister) (first second : UInt8) :
    (hw.setStored r first).setStored r second = hw.setStored r second := by
  simp [setStored]

/-- Writes to two registers may be made in either order. -/
theorem setStored_comm (hw : Hardware) {r q : DeviceRegister} (apart : r ≠ q)
    (first second : UInt8) :
    (hw.setStored r first).setStored q second = (hw.setStored q second).setStored r first := by
  have places : r.offset.val ≠ q.offset.val := fun same =>
    apart (DeviceRegister.offset_injective (Fin.ext same))
  unfold setStored
  dsimp only
  congr 2
  exact Vector.set_comm _ _ places

/-! ## The part that changes -/

/-- What catching up changes of the hardware: the time caught up with, the timer with its
counter, the serial interface with its data register and its control register, the
screen with the time its current line began, and the interrupt requests. -/
@[ext] structure Devices where
  now : UInt64
  timer : Timer
  counter : UInt8
  serial : SerialInterface
  data : UInt8
  transfer : UInt8
  lineStart : UInt64
  lcd : LcdRegisters
  requests : UInt8

/-- What controls the devices while they catch up: the control register of the timer and
what its counter starts again from, the control register of the screen and the line
waited for, and the speed of the processor. -/
structure Controls where
  timer : UInt8
  modulo : UInt8
  lcd : UInt8
  awaited : UInt8
  speed : UInt8

/-- The devices of the hardware. -/
def devices (hw : Hardware) : Devices where
  now := hw.now
  timer := hw.timer
  counter := hw.stored .tima
  serial := hw.serial
  data := hw.stored .sb
  transfer := hw.stored .sc
  lineStart := hw.lineStart
  lcd := ⟨hw.stored .ly, hw.stored .stat⟩
  requests := hw.stored .irq

/-- What controls the devices at some speed of the processor. -/
def controls (hw : Hardware) (speed : UInt8) : Controls where
  timer := hw.stored .tac
  modulo := hw.stored .tma
  lcd := hw.stored .lcdc
  awaited := hw.stored .lyc
  speed

/-- The hardware with its devices exchanged. -/
def withDevices (hw : Hardware) (devices : Devices) : Hardware :=
  let ⟨now, timer, counter, serial, data, transfer, lineStart, lcd, requests⟩ := devices
  let hw := { hw with now, timer, serial, lineStart }
  let hw := ((hw.setStored .tima counter).setStored .sb data).setStored .sc transfer
  ((hw.setStored .ly lcd.line).setStored .stat lcd.status).setStored .irq requests

/-- Replaces a byte of the devices, if catching up writes the register. -/
def Devices.put (devices : Devices) (r : DeviceRegister) (value : UInt8) : Devices :=
  match r with
  | .tima => { devices with counter := value }
  | .sb => { devices with data := value }
  | .sc => { devices with transfer := value }
  | .ly => { devices with lcd := { devices.lcd with line := value } }
  | .stat => { devices with lcd := { devices.lcd with status := value } }
  | .irq => { devices with requests := value }
  | _ => devices

/-- A byte stored in a register shows in the devices, and only there. -/
theorem devices_setStored (hw : Hardware) (r : DeviceRegister) (value : UInt8) :
    (hw.setStored r value).devices = hw.devices.put r value := by
  cases r <;> simp only [devices, stored_setStored, Devices.put] <;> rfl

/-- Devices that are put back can be taken out again. -/
theorem devices_withDevices (hw : Hardware) (devices : Devices) :
    (hw.withDevices devices).devices = devices := by
  obtain ⟨now, timer, counter, serial, data, transfer, lineStart, lcd, requests⟩ := devices
  simp only [withDevices, devices_setStored, Devices.put]
  rfl

/-- The registers that catching up writes. -/
def DeviceRegister.catchesUp : DeviceRegister → Bool
  | .tima | .sb | .sc | .ly | .stat | .irq => true
  | _ => false

/-- Storing a register that the devices write leaves the registers that control them alone. -/
theorem controls_setStored (hw : Hardware) {r : DeviceRegister} (written : r.catchesUp = true)
    (value speed : UInt8) : (hw.setStored r value).controls speed = hw.controls speed := by
  cases r <;> first | contradiction | (simp only [controls, stored_setStored]; rfl)

/-- The devices do not control themselves. -/
theorem controls_withDevices (hw : Hardware) (devices : Devices) (speed : UInt8) :
    (hw.withDevices devices).controls speed = hw.controls speed := by
  simp only [withDevices]
  repeat rw [controls_setStored _ rfl]
  rfl

/-- Exchanging the devices for themselves changes nothing. -/
theorem withDevices_devices (hw : Hardware) : hw.withDevices hw.devices = hw := by
  have own : ∀ r, hw.setStored r (hw.stored r) = hw := fun r => setStored_of_stored rfl
  simp only [withDevices, devices, own]

/-- A byte stored in one of these registers goes with the devices. -/
theorem withDevices_setStored (hw : Hardware) {r : DeviceRegister} (written : r.catchesUp = true)
    (value : UInt8) (devices : Devices) :
    (hw.setStored r value).withDevices devices = hw.withDevices devices := by
  simp only [withDevices, setStored]
  congr 2
  apply Vector.ext
  intro i bound
  simp only [Vector.getElem_set]
  cases r <;> first | contradiction | grind

/-- The devices exchanged last are those that stay. -/
theorem withDevices_withDevices (hw : Hardware) (first second : Devices) :
    (hw.withDevices first).withDevices second = hw.withDevices second := by
  obtain ⟨now, timer, counter, serial, data, transfer, lineStart, lcd, requests⟩ := first
  have stored : ∀ hw : Hardware,
      (((((((hw.setStored .tima counter).setStored .sb data).setStored .sc transfer).setStored .ly
        lcd.line).setStored .stat lcd.status).setStored .irq requests).withDevices second) =
        hw.withDevices second := by
    intro hw
    repeat rw [withDevices_setStored _ rfl]
  exact stored { hw with now, timer, serial, lineStart }

/-- Hardware that differs in the devices only is the same with its devices put in. -/
theorem eq_withDevices {hw next : Hardware}
    (only : ∀ devices, next.withDevices devices = hw.withDevices devices) :
    next = hw.withDevices next.devices := by
  rw [← only, withDevices_devices]

/-! ## The devices by themselves -/

/-- The request of an interrupt if there is reason for it. -/
def requestIf (reason : Bool) (source : Interrupt) : UInt8 := if reason then source.mask else 0

/-- Requesting nothing leaves the requests as they are. -/
theorem or_requestIf_false (requests : UInt8) (source : Interrupt) :
    requests ||| requestIf false source = requests :=
  UInt8.or_zero

/-- Two requests of one source are one request. -/
theorem requestIf_or (first second : Bool) (source : Interrupt) :
    requestIf first source ||| requestIf second source = requestIf (first || second) source := by
  cases first <;> cases second <;> simp [requestIf]

/-- Lets the timer catch up. -/
def Devices.updateTimer (devices : Devices) (controls : Controls) : Devices :=
  let count := devices.timer.update devices.now controls.timer controls.modulo devices.counter
  { devices with
    timer := count.timer
    counter := count.counter
    requests := devices.requests ||| requestIf count.overflowed .timer }

/-- Lets the serial interface catch up. -/
def Devices.updateSerial (devices : Devices) : Devices :=
  let (serial, data, completed) := devices.serial.update devices.now devices.data
  { devices with
    serial
    data
    transfer := if completed then devices.transfer &&& ~~~ 0x80 else devices.transfer
    requests := devices.requests ||| requestIf completed .serial }

/-- Lets the screen catch up. Returns whether a frame was finished. -/
def Devices.updateLcd (devices : Devices) (controls : Controls) : Devices × Bool :=
  let progress := Lcd.update devices.lineStart devices.now controls.speed controls.lcd
    controls.awaited devices.lcd
  ({ devices with
     lineStart := progress.lineStart
     lcd := progress.registers
     requests := devices.requests ||| (progress.interrupts &&& 0x1F) }, progress.frame)

/-- Lets all devices catch up. Returns whether a frame was finished. -/
def Devices.update (devices : Devices) (controls : Controls) (now : UInt64) : Devices × Bool :=
  ({ devices with now }.updateTimer controls).updateSerial.updateLcd controls

/-! ## The hardware catches up as its devices do -/

/-- Putting devices back overwrites a request that was raised before. -/
theorem withDevices_raiseInterrupt (hw : Hardware) (mask : UInt8) (devices : Devices) :
    (hw.raiseInterrupt mask).withDevices devices = hw.withDevices devices :=
  withDevices_setStored _ rfl _ _

/-- Raising an interrupt changes the requests of the devices only. -/
theorem devices_raiseInterrupt (hw : Hardware) (mask : UInt8) :
    (hw.raiseInterrupt mask).devices =
      { hw.devices with requests := hw.devices.requests ||| (mask &&& 0x1F) } :=
  devices_setStored ..

/-- The mask of a source is one of the five interrupt bits. -/
theorem mask_requests (source : Interrupt) : source.mask &&& 0x1F = source.mask := by
  cases source <;> rfl

/-- What an outcome of the timer makes of the devices. -/
theorem devices_of_count (hw : Hardware) (count : Timer.Count) :
    (if count.overflowed then
        ({ hw with timer := count.timer }.setStored .tima count.counter).raiseInterrupt
          Interrupt.timer.mask
      else
        { hw with timer := count.timer }.setStored .tima count.counter).devices =
      { hw.devices with
        timer := count.timer
        counter := count.counter
        requests := hw.devices.requests ||| requestIf count.overflowed .timer } := by
  obtain ⟨timer, counter, _ | _⟩ := count
  · rw [or_requestIf_false]
    exact devices_setStored ..
  · exact (devices_raiseInterrupt ..).trans (by rw [devices_setStored, mask_requests]; rfl)

/-- The timer is caught up as a device among devices. -/
theorem updateTimer_eq (hw : Hardware) (speed : UInt8) :
    hw.updateTimer = hw.withDevices (hw.devices.updateTimer (hw.controls speed)) := by
  have only : ∀ devices, hw.updateTimer.withDevices devices = hw.withDevices devices := by
    intro devices
    simp only [Hardware.updateTimer]
    split
    · rw [withDevices_raiseInterrupt, withDevices_setStored _ rfl]
      rfl
    · rw [withDevices_setStored _ rfl]
      rfl
  have same : hw.updateTimer.devices = hw.devices.updateTimer (hw.controls speed) :=
    devices_of_count hw _
  rw [eq_withDevices only, same]

/-- What an outcome of the serial interface makes of the devices. -/
theorem devices_of_transfer (hw : Hardware) (outcome : SerialInterface × UInt8 × Bool) :
    (if outcome.2.2 then
        (({ hw with serial := outcome.1 }.setStored .sb outcome.2.1).setStored .sc
          (hw.stored .sc &&& ~~~ 0x80)).raiseInterrupt Interrupt.serial.mask
      else
        { hw with serial := outcome.1 }.setStored .sb outcome.2.1).devices =
      { hw.devices with
        serial := outcome.1
        data := outcome.2.1
        transfer :=
          if outcome.2.2 then hw.devices.transfer &&& ~~~ 0x80 else hw.devices.transfer
        requests := hw.devices.requests ||| requestIf outcome.2.2 .serial } := by
  obtain ⟨serial, data, _ | _⟩ := outcome
  · rw [or_requestIf_false]
    exact devices_setStored ..
  · exact (devices_raiseInterrupt ..).trans
      (by rw [devices_setStored, devices_setStored, mask_requests]; rfl)

/-- The serial interface is caught up as a device among devices. -/
theorem updateSerial_eq (hw : Hardware) :
    hw.updateSerial = hw.withDevices hw.devices.updateSerial := by
  have only : ∀ devices, hw.updateSerial.withDevices devices = hw.withDevices devices := by
    intro devices
    simp only [Hardware.updateSerial]
    split
    · rw [withDevices_raiseInterrupt, withDevices_setStored _ rfl, withDevices_setStored _ rfl]
      rfl
    · rw [withDevices_setStored _ rfl]
      rfl
  have same : hw.updateSerial.devices = hw.devices.updateSerial := by
    have kept : ({ hw with serial := (hw.serial.update hw.now (hw.stored .sb)).1 }.setStored .sb
        (hw.serial.update hw.now (hw.stored .sb)).2.1).stored .sc = hw.stored .sc := by
      rw [stored_setStored]
      rfl
    simp only [Hardware.updateSerial, kept]
    exact devices_of_transfer hw _
  rw [eq_withDevices only, same]

/-- The display is caught up as a device among devices. -/
theorem updateLcd_eq (hw : Hardware) (speed : UInt8) :
    hw.updateLcd speed =
      (hw.withDevices (hw.devices.updateLcd (hw.controls speed)).1,
        (hw.devices.updateLcd (hw.controls speed)).2) := by
  have only : ∀ devices, (hw.updateLcd speed).1.withDevices devices = hw.withDevices devices := by
    intro devices
    simp only [Hardware.updateLcd]
    rw [withDevices_raiseInterrupt, withDevices_setStored _ rfl, withDevices_setStored _ rfl]
    rfl
  have same : (hw.updateLcd speed).1.devices = (hw.devices.updateLcd (hw.controls speed)).1 := by
    simp only [Hardware.updateLcd]
    rw [devices_raiseInterrupt, devices_setStored, devices_setStored]
    rfl
  exact Prod.ext (by rw [eq_withDevices only, same]) rfl

/-- The hardware catches up as its devices do. -/
theorem update_eq (hw : Hardware) (now : UInt64) (speed : UInt8) :
    hw.update now speed =
      (hw.withDevices (hw.devices.update (hw.controls speed) now).1,
        (hw.devices.update (hw.controls speed) now).2) := by
  have timed : { hw with now } = hw.withDevices { hw.devices with now } :=
    eq_withDevices fun _ => rfl
  unfold update Devices.update
  rw [timed, updateTimer_eq _ speed, updateSerial_eq, updateLcd_eq]
  simp only [withDevices_withDevices, devices_withDevices, controls_withDevices]

end Handheld.Hardware
