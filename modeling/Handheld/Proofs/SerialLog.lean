import Mathlib.Data.List.Basic
import Handheld.Proofs.Arrivals
import Handheld.Proofs.Device.SerialInterface

/-!
# The serial output is a log

The byte in the data register is captured whenever a transfer is started, and nothing else
touches what was captured: neither the shifts of a transfer under way, nor its end, nor a reset,
nor another cartridge. So the output after a session is the output before it, followed by one
byte for each store to the control register that starts a transfer (`Arrival.sent`), in the order
of the stores. Block copies end in the sprite table and in video RAM (`moves_destination`), so the
stores of the processor are the only ones that can start one.
-/

set_option autoImplicit false

namespace Handheld

/-- The byte that a store starts to send: the data register, if the store reaches the control
register and asks for a transfer with the clock of this machine. -/
def Arrival.sent (arrival : Arrival Hardware) : Option UInt8 :=
  if arrival.place = arrival.bus.resolve 0xFF02 ∧ arrival.value &&& 0x81 = 0x81 then
    some (arrival.bus.stored .sb)
  else
    none

namespace Hardware

/-! ## Where block copies end -/

/-- The moves of a block copy end in the sprite table or in video RAM. -/
theorem moves_destination {hw : Hardware} {place : Place} {value : UInt8} {move : Move}
    (copied : move ∈ hw.moves place value) :
    (∃ n, move.destination = .oam n) ∨ ∃ n, move.destination = .vram n := by
  unfold moves at copied
  split at copied
  next n =>
    split at copied
    next =>
      obtain ⟨i, -, rfl⟩ := List.mem_map.mp copied
      exact .inl ⟨i, rfl⟩
    next =>
      split at copied
      next =>
        obtain ⟨i, -, rfl⟩ := List.mem_map.mp copied
        exact .inr ⟨_, hw.resolve_vram (videoAddress_window _)⟩
      next => cases copied
    next => cases copied
  next => cases copied

/-! ## What is captured -/

/-- The control register of the serial interface lies at one address. -/
theorem resolve_serialControl (hw : Hardware) : hw.resolve 0xFF02 = .io 0x02 := rfl

/-- The bytes that were captured, the earliest first. -/
def captured (hw : Hardware) : List UInt8 := hw.serial.output.toList

/-- Starting a transfer captures the data register, if the control says so. -/
theorem captured_startSerial (hw : Hardware) (control : UInt8) :
    (hw.startSerial control).captured =
      hw.captured ++ if control &&& 0x81 = 0x81 then [hw.stored .sb] else [] := by
  unfold startSerial SerialInterface.starts
  split
  next asked =>
    rw [if_pos (beq_iff_eq.mp asked)]
    exact Array.toList_push
  next silent =>
    rw [if_neg fun asked => silent (beq_iff_eq.mpr asked), List.append_nil]

/-- A store adds to what was captured the byte that it starts to send. -/
theorem captured_store (hw : Hardware) (place : Place) (value : UInt8) :
    (hw.store place value).captured =
      hw.captured ++ (Arrival.sent ⟨hw, place, value⟩).toList := by
  by_cases control : place = hw.resolve 0xFF02
  · have started : (hw.store place value).captured = (hw.startSerial value).captured := by
      rw [control, resolve_serialControl]
      rfl
    rw [started, captured_startSerial]
    by_cases asked : value &&& 0x81 = 0x81
    · rw [if_pos asked, Arrival.sent, if_pos ⟨control, asked⟩]
      rfl
    · rw [if_neg asked, Arrival.sent, if_neg fun sends => asked sends.2]
      rfl
  · have untouched : (hw.store place value).captured = hw.captured :=
      congrArg (fun serial => serial.output.toList) (hw.store_serial value control)
    rw [untouched, Arrival.sent, if_neg fun sends => control sends.1]
    exact (List.append_nil _).symm

/-- Devices that catch up capture nothing, whatever becomes of a transfer under way. -/
theorem captured_update (hw : Hardware) (now : UInt64) (speed : UInt8) :
    (hw.update now speed).1.captured = hw.captured := by
  obtain ⟨-, -, serial, -, -, -⟩ := hw.devices.update_parts (hw.controls speed) now
  have kept : (hw.update now speed).1.serial.output = hw.serial.output := by
    rw [update_eq, (hw.withDevices_parts _).2.2.1, serial]
    exact SerialInterface.shiftDue_output now hw.serial _ _
  exact congrArg Array.toList kept

/-- The state after the boot program has captured nothing new. -/
theorem captured_postBoot (hw : Hardware) : hw.postBoot.captured = hw.captured := by
  unfold captured postBoot
  rfl

/-- What was captured records the bytes that arrive. A reset gives up the transfer under way and
keeps what was captured. -/
theorem records_captured :
    Records captured fun log arrival => log ++ arrival.sent.toList where
  store := captured_store
  sync _ _ := rfl
  requests _ _ := rfl
  speed _ _ := rfl
  update := captured_update
  hear _ := rfl
  powerCycle _ := rfl
  postBoot := captured_postBoot
  insert _ _ := rfl
  install _ _ := rfl

end Hardware

namespace Machine

open Hardware

/-- The serial output after a session is the output before it and one byte for each store that
starts a transfer, in order, each the byte that the data register held. Block copies store nothing
to the control register. -/
theorem serial_output_is_exact_log :
    (∀ (m : Machine) (requests : List Request),
      (m.session requests).1.serialOutput.toList =
        m.serialOutput.toList ++ (m.arrivals requests).filterMap Arrival.sent) ∧
    ∀ (hw : Hardware) (place : Place) (value : UInt8), ∀ move ∈ hw.moves place value,
      move.destination ≠ hw.resolve 0xFF02 := by
  constructor
  · intro m requests
    have recorded := records_captured.session m requests
    rw [List.foldl_append_eq_append, ← List.flatMap_def, ← List.filterMap_eq_flatMap_toList]
      at recorded
    exact recorded
  · intro hw place value move copied same
    rw [resolve_serialControl] at same
    obtain ⟨n, destination⟩ | ⟨n, destination⟩ := moves_destination copied
    · rw [destination] at same
      cases same
    · rw [destination] at same
      cases same

/-- A machine with a transfer under way and a boot program that starts the next one. -/
def sending : Machine :=
  let m := (assemble .empty #[0x3E, 0x81, 0xE0, 0x02]).reset
  let serial : SerialInterface :=
    { bitsLeft := 5, nextBit := 8, bitTime := 512, output := #[0x41] }
  { m with bus := { m.bus with serial } }

/-- The byte that leaves first is one that the transfer before it has shifted. A copy into the
sprite table, a reset, and a control byte without bit 7 add nothing. -/
theorem serial_output_is_exact_log_of_sending :
    let requests := [.run (some 20), .write 0xFF46 0x00, .write 0xFF02 0x81, .reset,
      .write 0xFF02 0x01, .write 0xFF02 0x81]
    (sending.arrivals requests).filterMap Arrival.sent = [0x01, 0x01, 0x00] ∧
      (sending.session requests).1.serialOutput.toList = [0x41, 0x01, 0x01, 0x00] ∧
      (⟨.oam 0, .boot 0⟩ ∈ sending.bus.moves (.io 0x46) 0x00 ∧
        Place.oam 0 ≠ sending.bus.resolve 0xFF02) := by
  intro requests
  obtain ⟨log, copies⟩ := serial_output_is_exact_log
  have sent : (sending.arrivals requests).filterMap Arrival.sent = [0x01, 0x01, 0x00] := by
    decide +kernel
  have earlier : sending.serialOutput.toList = [0x41] := by decide +kernel
  have first : ⟨.oam 0, .boot 0⟩ ∈ sending.bus.moves (.io 0x46) 0x00 := by decide +kernel
  refine ⟨sent, ?_, first, copies sending.bus _ _ _ first⟩
  rw [log, sent, earlier]
  rfl

end Machine

end Handheld
