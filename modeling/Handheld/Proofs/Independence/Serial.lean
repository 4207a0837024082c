import Handheld.Proofs.Hardware.CatchUp
import Handheld.Proofs.Independence.Machine

/-!
# An idle serial interface has no past

The serial interface remembers when the next bit is due and how long a bit takes. Both are
set when a transfer starts and only looked at while one is under way, so between transfers
they may be anything. What left through the interface is captured and never looked at by the
hardware. Two interfaces are alike if they differ in no more than that, and so is the
hardware around them: no program can tell it apart.
-/

set_option autoImplicit false

namespace Handheld

namespace SerialInterface

/-- The same bytes have left since `past` and `past'` had left, and the transfers under way are
at the same point, if there are any. -/
structure Alike (past past' : Array UInt8) (serial serial' : SerialInterface) : Prop where
  bitsLeft : serial.bitsLeft = serial'.bitsLeft
  timing : serial.bitsLeft ≠ 0 →
    serial.nextBit = serial'.nextBit ∧ serial.bitTime = serial'.bitTime
  output : ∃ sent, serial.output = past ++ sent ∧ serial'.output = past' ++ sent

/-- Interfaces that have given up their transfers are alike from now on. -/
theorem alike_cancel (serial serial' : SerialInterface) :
    Alike serial.output serial'.output serial.cancel serial'.cancel where
  bitsLeft := rfl
  timing := by
    intro transferring
    contradiction
  output := ⟨#[], by simp [cancel], by simp [cancel]⟩

namespace Alike

variable {past past' : Array UInt8} {serial serial' : SerialInterface}

/-- Interfaces that are alike are so once they are cancelled. -/
theorem cancel (h : Alike past past' serial serial') :
    Alike past past' serial.cancel serial'.cancel where
  bitsLeft := rfl
  timing := by
    intro transferring
    contradiction
  output := h.output

/-- Of interfaces that are alike, both are transferring or none. -/
theorem transferring (h : Alike past past' serial serial') :
    serial.transferring = serial'.transferring := by
  unfold SerialInterface.transferring
  rw [h.bitsLeft]

/-- A transfer that starts sets what it looks at. -/
theorem start (h : Alike past past' serial serial') (now : UInt64) (data control : UInt8)
    (color : Bool) :
    Alike past past' (serial.start now data control color)
      (serial'.start now data control color) where
  bitsLeft := rfl
  timing := fun _ => ⟨rfl, rfl⟩
  output := by
    obtain ⟨sent, output, output'⟩ := h.output
    refine ⟨sent.push data, ?_, ?_⟩
    · show serial.output.push data = _
      rw [output, Array.append_push]
    · show serial'.output.push data = _
      rw [output', Array.append_push]

/-- The bits of a transfer are shifted at the same time. The induction is on the bits that are
left. -/
theorem shiftDue (now : UInt64) (bits : Nat) {serial serial' : SerialInterface}
    (h : Alike past past' serial serial') (left : serial.bitsLeft = bits) (data : UInt8) :
    Alike past past' (shiftDue now serial data bits).1 (shiftDue now serial' data bits).1 ∧
      (SerialInterface.shiftDue now serial data bits).2 =
        (SerialInterface.shiftDue now serial' data bits).2 := by
  induction bits generalizing serial serial' data with
  | zero => exact ⟨h, rfl⟩
  | succ bits ih =>
    obtain ⟨next, time⟩ := h.timing (by omega)
    have shifted : Alike past past'
        { serial with bitsLeft := bits, nextBit := serial.nextBit + serial.bitTime }
        { serial' with bitsLeft := bits, nextBit := serial'.nextBit + serial'.bitTime } :=
      ⟨rfl, fun _ => ⟨by rw [next, time], time⟩, h.output⟩
    unfold SerialInterface.shiftDue
    rw [next]
    split
    · dsimp only
      split
      · exact ⟨by rwa [next] at shifted, rfl⟩
      · exact ih (by rwa [next] at shifted) rfl _
    · exact ⟨h, rfl⟩

/-- Interfaces that are alike catch up to interfaces that are alike, with the same outcome. -/
theorem update (h : Alike past past' serial serial') (now : UInt64) (data : UInt8) :
    Alike past past' (serial.update now data).1 (serial'.update now data).1 ∧
      (serial.update now data).2 = (serial'.update now data).2 := by
  unfold SerialInterface.update
  rw [← h.bitsLeft]
  exact h.shiftDue now serial.bitsLeft rfl data

end Alike

end SerialInterface

namespace Hardware

/-- Hardware around two serial interfaces that are alike. -/
structure Alike (past past' : Array UInt8) (hw hw' : Hardware) : Prop where
  rest : hw' = { hw with serial := hw'.serial }
  serial : hw.serial.Alike past past' hw'.serial

variable {past past' : Array UInt8} {hw hw' : Hardware}

/-- Another interface that is alike makes hardware that is alike. -/
theorem alike_of_serial (hw : Hardware) {serial' : SerialInterface}
    (alike : hw.serial.Alike past past' serial') :
    Alike past past' hw { hw with serial := serial' } :=
  ⟨rfl, alike⟩

namespace Alike

/-- Hardware that is alike differs in its serial interface only. -/
theorem exists_serial (h : Alike past past' hw hw') :
    ∃ serial', hw.serial.Alike past past' serial' ∧ hw' = { hw with serial := serial' } :=
  ⟨hw'.serial, h.serial, h.rest⟩

/-! ## What is read -/

/-- Hardware that is alike loads the same bytes. -/
theorem load (h : Alike past past' hw hw') (place : Place) : hw.load place = hw'.load place := by
  obtain ⟨serial', alike, rfl⟩ := h.exists_serial
  cases place with
  | io n =>
    unfold Hardware.load
    dsimp only
    split
    · split
      next r _ =>
        cases r with
        | sc => simp only [registerShows, alike.transferring]
        | _ => rfl
      next => rfl
    · rfl
  | _ => rfl

/-! ## What changes -/

/-- Storing a register keeps hardware alike. -/
theorem setStored (h : Alike past past' hw hw') (r : DeviceRegister) (value : UInt8) :
    Alike past past' (hw.setStored r value) (hw'.setStored r value) := by
  obtain ⟨serial', alike, rfl⟩ := h.exists_serial
  exact (hw.setStored r value).alike_of_serial alike

/-- A store to memory keeps hardware alike. -/
theorem storeMemory (h : Alike past past' hw hw') (place : Place) (value : UInt8) :
    Alike past past' (hw.storeMemory place value) (hw'.storeMemory place value) := by
  obtain ⟨serial', alike, rfl⟩ := h.exists_serial
  cases place <;> exact ⟨rfl, alike⟩

/-- A block copy keeps hardware alike. -/
theorem copied (h : Alike past past' hw hw') (moves : List Move) :
    Alike past past' (moves.foldl carryOut hw) (moves.foldl carryOut hw') := by
  induction moves generalizing hw hw' with
  | nil => exact h
  | cons move moves ih =>
    apply ih
    unfold carryOut
    rw [h.load]
    exact h.storeMemory _ _

/-- What a register does when it is written keeps hardware alike. -/
theorem registerActs (h : Alike past past' hw hw') (r : DeviceRegister) (value : UInt8) :
    Alike past past' (hw.registerActs r value) (hw'.registerActs r value) := by
  obtain ⟨serial', alike, rfl⟩ := h.exists_serial
  cases r with
  | sc =>
    simp only [Hardware.registerActs, startSerial]
    split
    · exact ⟨rfl, alike.start _ _ _ _⟩
    · exact h
  | dma => exact h.copied _
  | hdma5 =>
    simp only [Hardware.registerActs]
    split
    · exact h.copied _
    · exact h
  | _ => exact ⟨rfl, alike⟩

/-- Every store keeps hardware alike. -/
theorem store (h : Alike past past' hw hw') (place : Place) (value : UInt8) :
    Alike past past' (hw.store place value) (hw'.store place value) := by
  obtain ⟨serial', alike, rfl⟩ := h.exists_serial
  cases place with
  | io n =>
    simp only [Hardware.store, storeDevice]
    split
    next r _ => exact (h.registerActs r value).setStored r _
    next => exact ⟨rfl, alike⟩
  | _ => exact ⟨rfl, alike⟩

/-! ## Devices that catch up -/

/-- Raising an interrupt keeps hardware alike. -/
theorem raiseInterrupt (h : Alike past past' hw hw') (mask : UInt8) :
    Alike past past' (hw.raiseInterrupt mask) (hw'.raiseInterrupt mask) := by
  obtain ⟨serial', alike, rfl⟩ := h.exists_serial
  exact ⟨rfl, alike⟩

/-- While the devices catch up only the serial interface looks at itself. -/
theorem devices_update {devices : Devices} {serial' : SerialInterface}
    (h : devices.serial.Alike past past' serial') (controls : Controls) (now : UInt64) :
    ∃ after', (devices.update controls now).1.serial.Alike past past' after' ∧
      { devices with serial := serial' }.update controls now =
        ({ (devices.update controls now).1 with serial := after' },
          (devices.update controls now).2) := by
  obtain ⟨alike, same⟩ := h.update now devices.data
  have shifts : ∀ devices : Devices, devices.updateSerial =
      let shifted := devices.serial.update devices.now devices.data
      { devices with
        serial := shifted.1
        data := shifted.2.1
        transfer := if shifted.2.2 then devices.transfer &&& ~~~ 0x80 else devices.transfer
        requests := devices.requests ||| requestIf shifted.2.2 .serial } := fun _ => rfl
  refine ⟨(serial'.update now devices.data).1, alike, ?_⟩
  unfold Devices.update
  rw [shifts, shifts]
  dsimp only [Devices.updateTimer]
  rw [← same]
  rfl

/-- Hardware that is alike catches up to hardware that is alike, and ends a frame alike. -/
theorem update (h : Alike past past' hw hw') (now : UInt64) (speed : UInt8) :
    Alike past past' (hw.update now speed).1 (hw'.update now speed).1 ∧
      (hw.update now speed).2 = (hw'.update now speed).2 := by
  obtain ⟨serial', alike, rfl⟩ := h.exists_serial
  have start : hw.devices.serial.Alike past past' serial' := alike
  obtain ⟨after', still, caught⟩ := devices_update start (hw.controls speed) now
  have devices : { hw with serial := serial' }.devices =
      { hw.devices with serial := serial' } := rfl
  have controls : { hw with serial := serial' }.controls speed = hw.controls speed := rfl
  have whole : ∀ devices, { hw with serial := serial' }.withDevices devices =
      hw.withDevices devices := fun _ => rfl
  rw [update_eq, update_eq, devices, controls, whole, caught]
  generalize (hw.devices.update (hw.controls speed) now).1 = next at still ⊢
  refine ⟨(hw.withDevices next).alike_of_serial ?_, rfl⟩
  rwa [(hw.withDevices_parts next).2.2.1]

end Alike

instance : Congruence (Alike past past') where
  resolve := by
    intro hw hw' h address
    rw [h.rest]
    rfl
  load := fun h => h.load
  announce := by
    intro hw hw' h place value
    rw [h.rest]
    rfl
  interruptFlag := by
    intro hw hw' h
    rw [h.rest]
    rfl
  interruptEnable := by
    intro hw hw' h
    rw [h.rest]
    rfl
  speedSwitchArmed := by
    intro hw hw' h
    rw [h.rest]
    rfl
  store := fun h => h.store
  sync := by
    intro hw hw' h cycles
    obtain ⟨serial', alike, rfl⟩ := h.exists_serial
    exact ⟨rfl, alike⟩
  setInterruptFlag := fun h value => h.setStored .irq (value &&& 0x1F)
  setDoubleSpeed := fun h double => h.setStored .key1 (if double then 0x80 else 0x00)
  cartridge := by
    intro hw hw' h
    rw [h.rest]
  rebootRequested := by
    intro hw hw' h
    rw [h.rest]
  hasBootProgram := by
    intro hw hw' h
    rw [h.rest]
    rfl
  update := fun h => h.update
  hear := by
    intro hw hw' h
    obtain ⟨serial', alike, rfl⟩ := h.exists_serial
    exact ⟨rfl, alike⟩
  raise := fun h => h.raiseInterrupt
  powerCycle := by
    intro hw hw' h
    obtain ⟨serial', alike, rfl⟩ := h.exists_serial
    exact ⟨rfl, alike.cancel⟩
  postBoot := by
    intro hw hw' h
    obtain ⟨serial', alike, rfl⟩ := h.exists_serial
    unfold postBoot
    exact ⟨rfl, alike⟩
  insert := by
    intro hw hw' h cartridge
    obtain ⟨serial', alike, rfl⟩ := h.exists_serial
    exact ⟨rfl, alike⟩
  install := by
    intro hw hw' h controller
    obtain ⟨serial', alike, rfl⟩ := h.exists_serial
    exact ⟨rfl, alike⟩

end Hardware

end Handheld
