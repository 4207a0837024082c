import Handheld.AddressSpace
import Handheld.Hardware.DeviceRegisters

/-!
# The hardware as an address space

What a store means for the ledger: a block copy books each of its moves, and a
sector that a flash cartridge puts into RAM has no origin. The devices catch up
with the cycle counter in `update`.
-/

set_option autoImplicit false

namespace Handheld

namespace Hardware

/-- Whether the hardware keeps a byte at a place. -/
def present (hw : Hardware) (place : Place) : Bool := (hw.byte? place).isSome

/-- Forgets the origins of `count` bytes of cartridge RAM from an offset on, as far
as RAM of the given size reaches. -/
def clearSram (size offset : Nat) : Nat → Ledger → Ledger
  | 0, ledger => ledger
  | count + 1, ledger =>
    if offset < size then clearSram size (offset + 1) count (ledger.clearOrigin (.sram offset))
    else ledger

/-- The moves that a store sets off by itself, booked in the ledger. -/
def trail (hw : Hardware) (place : Place) (value : UInt8) (ledger : Ledger) : Ledger :=
  match place with
  | .io _ =>
    (hw.moves place value).foldl
      (fun ledger move => ledger.link hw.present move.destination move.source) ledger
  | .rom _ _ =>
    match hw.cartridge.command place value with
    | some (.fillSram offset bytes) =>
      clearSram hw.cartridge.sram.size offset bytes.length ledger
    | _ => ledger
  | _ => ledger

/-- The events that a store brings about. -/
def announce (hw : Hardware) (place : Place) (value : UInt8) : List Event :=
  match place with
  | .io n =>
    match DeviceRegister.ofOffset? n with
    | some .sc => if SerialInterface.starts value then [.serialOut (hw.stored .sb)] else []
    | some .hdma5 =>
      if hw.color then
        [.videoTransfer hw.videoSource hw.videoDestination (videoLength value)]
      else
        []
    | _ => []
  | .rom _ address => (hw.cartridge.controller.event? address value).toList
  | _ => []

/-- The pending interrupt requests. -/
def interruptFlag (hw : Hardware) : UInt8 := hw.stored .irq &&& 0x1F

/-- Sets interrupt requests. -/
def raiseInterrupt (hw : Hardware) (mask : UInt8) : Hardware :=
  hw.setStored .irq (hw.stored .irq ||| (mask &&& 0x1F))

instance : AddressSpace Hardware where
  resolve := resolve
  byte? := byte?
  load := load
  store := store
  trail := trail
  announce := announce
  romBank hw := hw.cartridge.romBank
  sync hw cycles := { hw with now := cycles }
  interruptFlag := interruptFlag
  setInterruptFlag hw value := hw.setStored .irq (value &&& 0x1F)
  interruptEnable hw := hw.memories.interruptEnable
  speedSwitchArmed hw := hw.stored .key1 &&& 0x01 != 0
  setDoubleSpeed hw double := hw.setStored .key1 (if double then 0x80 else 0x00)

/-- Lets the timer catch up. -/
def updateTimer (hw : Hardware) : Hardware :=
  let count := hw.timer.update hw.now (hw.stored .tac) (hw.stored .tma) (hw.stored .tima)
  let hw := { hw with timer := count.timer }.setStored .tima count.counter
  if count.overflowed then hw.raiseInterrupt Interrupt.timer.mask else hw

/-- Lets the serial interface catch up. -/
def updateSerial (hw : Hardware) : Hardware :=
  let (serial, data, completed) := hw.serial.update hw.now (hw.stored .sb)
  let hw := { hw with serial }.setStored .sb data
  if completed then
    (hw.setStored .sc (hw.stored .sc &&& ~~~ 0x80)).raiseInterrupt Interrupt.serial.mask
  else
    hw

/-- Lets the screen catch up. Returns whether a frame was finished. -/
def updateLcd (hw : Hardware) (speed : UInt8) : Hardware × Bool :=
  let progress := Lcd.update hw.lineStart hw.now speed (hw.stored .lcdc) (hw.stored .lyc)
    ⟨hw.stored .ly, hw.stored .stat⟩
  let hw := { hw with lineStart := progress.lineStart }
  let hw := (hw.setStored .ly progress.registers.line).setStored .stat progress.registers.status
  (hw.raiseInterrupt progress.interrupts, progress.frame)

/-- Lets all devices catch up with the time `now`. Returns whether a frame was
finished. -/
def update (hw : Hardware) (now : UInt64) (speed : UInt8) : Hardware × Bool :=
  ({ hw with now }.updateTimer.updateSerial).updateLcd speed

/-- The hardware as it is built around a cartridge. -/
def assemble (cartridge : Cartridge) (boot : Array UInt8) : Hardware :=
  { cartridge, memories := { boot }, color := cartridge.header.color }

/-- Switches everything off and on but the cartridge, the boot image and what was
captured from the serial interface. -/
def powerCycle (hw : Hardware) : Hardware :=
  { cartridge := hw.cartridge
    memories := { boot := hw.memories.boot }
    serial := hw.serial.cancel
    color := hw.cartridge.header.color }

/-- What a finished boot program leaves in the device registers; the last entry
unmaps the boot image. -/
def postBootBytes : List (Nat × UInt8) :=
  [(0x40, 0x91), (0x47, 0xFC), (0x48, 0xFF), (0x49, 0xFF), (0x10, 0x80), (0x11, 0xBF),
    (0x12, 0xF3), (0x14, 0xBF), (0x16, 0x3F), (0x17, 0x00), (0x19, 0xBF), (0x1A, 0x7F),
    (0x1B, 0xFF), (0x1C, 0x9F), (0x1E, 0xBF), (0x20, 0xFF), (0x21, 0x00), (0x22, 0x00),
    (0x23, 0xBF), (0x24, 0x77), (0x25, 0xF3), (0x26, 0xF1), (0x50, 0x01)]

/-- The hardware as a finished boot program leaves it. -/
def postBoot (hw : Hardware) : Hardware :=
  { hw with
    memories := { hw.memories with
      io := postBootBytes.foldl (fun io entry => io.setIfInBounds entry.1 entry.2)
        hw.memories.io } }

/-- Exchanges the cartridge and keeps everything else. -/
def insert (hw : Hardware) (cartridge : Cartridge) : Hardware :=
  { hw with cartridge, color := cartridge.header.color }

end Hardware

end Handheld
