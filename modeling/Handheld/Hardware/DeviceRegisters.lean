import Handheld.Hardware.Basic

/-!
# Device registers

Every device register keeps a stored byte. Most read back what is stored; the
others force some bits, or show the state of a device instead. A store keeps the
bits that software can change, and may set a device to work: it starts a serial
transfer, resets the divider, streams a palette, or copies a block of memory.
-/

set_option autoImplicit false

namespace Handheld

namespace Hardware

/-- Replaces the stored byte of a device register. -/
def setStored (hw : Hardware) (register : DeviceRegister) (value : UInt8) : Hardware :=
  { hw with
    memories := { hw.memories with
      io := hw.memories.io.set register.offset.val value register.offset.isLt } }

/-- The index of a palette byte that a selector selects. -/
def paletteIndex (selector : UInt8) : Fin 0x40 := Fin.ofNat 0x40 selector.toNat

/-- The selector after a palette byte has been written: bit 7 makes it move on. -/
def nextSelector (selector : UInt8) : UInt8 :=
  if selector &&& 0x80 != 0 then 0x80 ||| ((selector + 1) &&& 0x3F) else selector

/-- What a device register with its own rule shows when `stored` is kept in it. -/
def registerShows (hw : Hardware) (register : DeviceRegister) (stored : UInt8) : UInt8 :=
  match register with
  | .p1 => (stored &&& 0x30) ||| 0xCF
  | .sc =>
    (if hw.serial.transferring then 0x80 else 0) |||
      (if hw.color then stored &&& 0x02 else 0) ||| (stored &&& 0x01) ||| 0x7C
  | .div => hw.timer.divider hw.now
  | .tac | .svbk => stored ||| 0xF8
  | .irq => stored ||| 0xE0
  | .stat => stored ||| 0x80
  | .key1 => if hw.color then stored ||| 0x7E else 0xFF
  | .vbk => stored ||| 0xFE
  | .hdma5 => 0xFF
  | .bcpd => hw.memories.backgroundPalette[paletteIndex (hw.stored .bcps)]
  | .ocpd => hw.memories.spritePalette[paletteIndex (hw.stored .ocps)]
  | .sb | .tima | .tma | .lcdc | .ly | .lyc | .dma | .boot | .hdma1 | .hdma2 | .hdma3 | .hdma4
  | .bcps | .ocps => stored

/-- What reading a place yields; where nothing answers the bus is all ones. -/
def load (hw : Hardware) (place : Place) : UInt8 :=
  match place with
  | .io n =>
    match hw.memories.io[n]? with
    | some stored =>
      match DeviceRegister.ofOffset? n with
      | some register => hw.registerShows register stored
      | none => stored
    | none => 0xFF
  | place => (hw.byte? place).getD 0xFF

/-- Puts a byte into one of the memories. Places without a memory, and the boot
image, ignore it. -/
def storeMemory (hw : Hardware) (place : Place) (value : UInt8) : Hardware :=
  match place with
  | .vram n =>
    { hw with memories := { hw.memories with vram := hw.memories.vram.setIfInBounds n value } }
  | .wram n =>
    { hw with memories := { hw.memories with wram := hw.memories.wram.setIfInBounds n value } }
  | .oam n =>
    { hw with memories := { hw.memories with oam := hw.memories.oam.setIfInBounds n value } }
  | .hram n =>
    { hw with memories := { hw.memories with hram := hw.memories.hram.setIfInBounds n value } }
  | .interruptEnable => { hw with memories := { hw.memories with interruptEnable := value } }
  | _ => hw

/-- One byte that a block copy moves. -/
structure Move where
  /-- Where it goes. -/
  destination : Place
  /-- Where it comes from. -/
  source : Place
  deriving DecidableEq, Inhabited

/-- The moves of a copy of a page into the sprite table. -/
def spriteMoves (hw : Hardware) (page : UInt8) : List Move :=
  (List.range 0xA0).map fun i =>
    { destination := .oam i, source := hw.resolve (word page 0 + UInt16.ofNat i) }

/-- The first address that a copy into video RAM reads. -/
def videoSource (hw : Hardware) : UInt16 :=
  word (hw.stored .hdma1) (hw.stored .hdma2) &&& 0xFFF0

/-- The first address that a copy into video RAM writes. -/
def videoDestination (hw : Hardware) : UInt16 :=
  0x8000 ||| (word (hw.stored .hdma3) (hw.stored .hdma4) &&& 0x1FF0)

/-- The number of bytes that a control byte asks to copy into video RAM. -/
def videoLength (control : UInt8) : Nat := ((control &&& 0x7F).toNat + 1) * 0x10

/-- The moves of a copy into video RAM. The destination wraps within its window. -/
def videoMoves (hw : Hardware) (control : UInt8) : List Move :=
  (List.range (videoLength control)).map fun i =>
    { destination :=
        hw.resolve (0x8000 ||| ((hw.videoDestination + UInt16.ofNat i) &&& 0x1FFF))
      source := hw.resolve (hw.videoSource + UInt16.ofNat i) }

/-- The moves that a store at a place sets off. -/
def moves (hw : Hardware) (place : Place) (value : UInt8) : List Move :=
  match place with
  | .io n =>
    match DeviceRegister.ofOffset? n with
    | some .dma => hw.spriteMoves value
    | some .hdma5 => if hw.color then hw.videoMoves value else []
    | _ => []
  | _ => []

/-- Carries out one move of a block copy. -/
def carryOut (hw : Hardware) (move : Move) : Hardware :=
  hw.storeMemory move.destination (hw.load move.source)

/-- Writes the palette byte that the selector selects and moves the selector on. -/
def writeBackgroundPalette (hw : Hardware) (value : UInt8) : Hardware :=
  let selector := hw.stored .bcps
  let hw := { hw with
    memories := { hw.memories with
      backgroundPalette := hw.memories.backgroundPalette.set (paletteIndex selector) value } }
  hw.setStored .bcps (nextSelector selector)

/-- Writes the palette byte that the selector selects and moves the selector on. -/
def writeSpritePalette (hw : Hardware) (value : UInt8) : Hardware :=
  let selector := hw.stored .ocps
  let hw := { hw with
    memories := { hw.memories with
      spritePalette := hw.memories.spritePalette.set (paletteIndex selector) value } }
  hw.setStored .ocps (nextSelector selector)

/-- Starts a serial transfer if the control byte asks for one. -/
def startSerial (hw : Hardware) (control : UInt8) : Hardware :=
  if SerialInterface.starts control then
    { hw with serial := hw.serial.start hw.now (hw.stored .sb) control hw.color }
  else
    hw

/-- What the devices make of a store to a device register, before the register
itself takes its new value. -/
def registerActs (hw : Hardware) (register : DeviceRegister) (value : UInt8) : Hardware :=
  match register with
  | .sc => hw.startSerial value
  | .div => { hw with timer := { hw.timer with dividerStart := hw.now } }
  | .dma => (hw.spriteMoves value).foldl carryOut hw
  | .hdma5 => if hw.color then (hw.videoMoves value).foldl carryOut hw else hw
  | .bcpd => hw.writeBackgroundPalette value
  | .ocpd => hw.writeSpritePalette value
  | _ => hw

/-- What a device register keeps of a byte stored to it when `stored` was kept
before. The line counter is out of reach, and a boot image once unmapped stays so. -/
def registerKeeps (register : DeviceRegister) (stored value : UInt8) : UInt8 :=
  match register with
  | .p1 => value &&& 0x30
  | .div => 0
  | .irq => value &&& 0x1F
  | .stat => (stored &&& 0x07) ||| (value &&& 0x78)
  | .ly => stored
  | .key1 => (stored &&& 0x80) ||| (value &&& 0x01)
  | .vbk => value &&& 0x01
  | .boot => stored ||| (if value = 0 then 0 else 1)
  | .hdma5 => 0xFF
  | .svbk => value &&& 0x07
  | .sb | .sc | .tima | .tma | .tac | .lcdc | .lyc | .dma | .hdma1 | .hdma2 | .hdma3 | .hdma4
  | .bcps | .bcpd | .ocps | .ocpd => value

/-- Stores a byte to a device register. -/
def storeRegister (hw : Hardware) (register : DeviceRegister) (value : UInt8) : Hardware :=
  let stored := hw.stored register
  (hw.registerActs register value).setStored register (registerKeeps register stored value)

/-- Stores a byte to the device register at a distance from FF00. -/
def storeDevice (hw : Hardware) (n : Nat) (value : UInt8) : Hardware :=
  match DeviceRegister.ofOffset? n with
  | some register => hw.storeRegister register value
  | none =>
    { hw with memories := { hw.memories with io := hw.memories.io.setIfInBounds n value } }

/-- Stores a byte to a place of the cartridge. -/
def storeCartridge (hw : Hardware) (place : Place) (value : UInt8) : Hardware :=
  { hw with
    rebootRequested := hw.rebootRequested || hw.cartridge.command place value == some .reboot
    cartridge := hw.cartridge.store place value }

/-- Writes a byte to a place, with all that the devices make of it. -/
def store (hw : Hardware) (place : Place) (value : UInt8) : Hardware :=
  match place with
  | .io n => hw.storeDevice n value
  | .rom _ _ | .sram _ | .rtc _ => hw.storeCartridge place value
  | place => hw.storeMemory place value

end Hardware

end Handheld
