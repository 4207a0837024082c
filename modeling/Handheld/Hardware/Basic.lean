import Handheld.Cartridge.Basic
import Handheld.Device.Lcd
import Handheld.Device.SerialInterface
import Handheld.Word

/-!
# The hardware

Everything the processor can address except its own registers: the cartridge, the
boot image, the memories, the device registers and the devices behind them.
-/

set_option autoImplicit false

namespace Handheld

/-- The memories of the machine. -/
structure Memories where
  /-- The boot image. -/
  boot : Array UInt8 := #[]
  /-- Video RAM, two banks. -/
  vram : Vector UInt8 0x4000 := Vector.replicate _ 0
  /-- Work RAM, eight banks. -/
  wram : Vector UInt8 0x8000 := Vector.replicate _ 0
  /-- The sprite table. -/
  oam : Vector UInt8 0xA0 := Vector.replicate _ 0
  /-- The stored bytes of the device registers. -/
  io : Vector UInt8 0x80 := Vector.replicate _ 0
  /-- High RAM. -/
  hram : Vector UInt8 0x7F := Vector.replicate _ 0
  /-- The interrupt-enable register. -/
  interruptEnable : UInt8 := 0
  /-- The background palettes. -/
  backgroundPalette : Vector UInt8 0x40 := Vector.replicate _ 0xFF
  /-- The sprite palettes. -/
  spritePalette : Vector UInt8 0x40 := Vector.replicate _ 0xFF
  deriving DecidableEq

/-- The state of everything the processor can address. -/
structure Hardware where
  /-- The inserted cartridge. -/
  cartridge : Cartridge
  /-- The memories. -/
  memories : Memories
  /-- The timer. -/
  timer : Timer := {}
  /-- The serial interface. -/
  serial : SerialInterface := {}
  /-- When the current line of the screen began. -/
  lineStart : UInt64 := 0
  /-- Whether the machine is in color mode. -/
  color : Bool
  /-- The cycle counter as the devices last saw it. -/
  now : UInt64 := 0
  /-- Whether the cartridge asked to be started anew. -/
  rebootRequested : Bool := false

namespace Hardware

/-- The device registers that something depends on, by their distance from FF00. -/
inductive DeviceRegister where
  | p1 | sb | sc | div | tima | tma | tac | irq
  | lcdc | stat | ly | lyc | dma | key1 | vbk | boot
  | hdma1 | hdma2 | hdma3 | hdma4 | hdma5 | bcps | bcpd | ocps | ocpd | svbk
  deriving DecidableEq, Inhabited

/-- The distance of a device register from FF00. -/
def DeviceRegister.offset : DeviceRegister → Fin 0x80
  | .p1 => 0x00
  | .sb => 0x01
  | .sc => 0x02
  | .div => 0x04
  | .tima => 0x05
  | .tma => 0x06
  | .tac => 0x07
  | .irq => 0x0F
  | .lcdc => 0x40
  | .stat => 0x41
  | .ly => 0x44
  | .lyc => 0x45
  | .dma => 0x46
  | .key1 => 0x4D
  | .vbk => 0x4F
  | .boot => 0x50
  | .hdma1 => 0x51
  | .hdma2 => 0x52
  | .hdma3 => 0x53
  | .hdma4 => 0x54
  | .hdma5 => 0x55
  | .bcps => 0x68
  | .bcpd => 0x69
  | .ocps => 0x6A
  | .ocpd => 0x6B
  | .svbk => 0x70

/-- The device register at a distance from FF00, if something depends on it. -/
def DeviceRegister.ofOffset? (n : Nat) : Option DeviceRegister :=
  match n with
  | 0x00 => some .p1
  | 0x01 => some .sb
  | 0x02 => some .sc
  | 0x04 => some .div
  | 0x05 => some .tima
  | 0x06 => some .tma
  | 0x07 => some .tac
  | 0x0F => some .irq
  | 0x40 => some .lcdc
  | 0x41 => some .stat
  | 0x44 => some .ly
  | 0x45 => some .lyc
  | 0x46 => some .dma
  | 0x4D => some .key1
  | 0x4F => some .vbk
  | 0x50 => some .boot
  | 0x51 => some .hdma1
  | 0x52 => some .hdma2
  | 0x53 => some .hdma3
  | 0x54 => some .hdma4
  | 0x55 => some .hdma5
  | 0x68 => some .bcps
  | 0x69 => some .bcpd
  | 0x6A => some .ocps
  | 0x6B => some .ocpd
  | 0x70 => some .svbk
  | _ => none

/-- Reading a distance back finds the device register it belongs to. -/
theorem DeviceRegister.ofOffset?_offset (register : DeviceRegister) :
    ofOffset? register.offset = some register := by
  cases register <;> rfl

/-- The stored byte of a device register. -/
def stored (hw : Hardware) (register : DeviceRegister) : UInt8 := hw.memories.io.get register.offset

/-- Whether FF00 + n is a device register at all; nothing answers at the others. -/
def isListed (n : Nat) : Bool :=
  n ≤ 0x02 || (0x04 ≤ n && n ≤ 0x07) || n == 0x0F || (0x10 ≤ n && n ≤ 0x14) ||
    (0x16 ≤ n && n ≤ 0x1E) || (0x20 ≤ n && n ≤ 0x26) || (0x30 ≤ n && n ≤ 0x4B) ||
    n == 0x4D || n == 0x4F || (0x50 ≤ n && n ≤ 0x55) || (0x68 ≤ n && n ≤ 0x6B) || n == 0x70

/-- Whether the boot image covers the start of the address space. -/
def bootMapped (hw : Hardware) : Bool :=
  hw.memories.boot.size != 0 && hw.stored .boot == 0

/-- Whether there is a boot program to run. -/
def hasBootProgram (hw : Hardware) : Bool := hw.memories.boot.getD 0 0 != 0

/-- The size of a bank of video RAM. -/
def vramBankSize : Nat := 0x2000

/-- The size of a bank of work RAM. -/
def wramBankSize : Nat := 0x1000

/-- The bank of video RAM in the window. -/
def vramBank (hw : Hardware) : Nat :=
  if hw.color then (hw.stored .vbk &&& 0x01).toNat else 0

/-- The bank of work RAM in the upper window; zero stands for one. -/
def wramBank (hw : Hardware) : Nat :=
  if hw.color then max 1 (hw.stored .svbk &&& 0x07).toNat else 1

/-- The place of an address between C000 and FDFF. -/
def wramPlace (hw : Hardware) (address : UInt16) : Place :=
  let offset := (address - 0xC000).toNat % 0x2000
  if offset < wramBankSize then .wram offset
  else .wram (hw.wramBank * wramBankSize + (offset - wramBankSize))

/-- Whether the boot image answers at an address. The images of color machines
also cover 0200 to 08FF. -/
def bootAnswers (hw : Hardware) (address : UInt16) : Bool :=
  hw.bootMapped &&
    (address < 0x0100 ||
      (0x0200 ≤ address && address < 0x0900 && address.toNat < hw.memories.boot.size))

/-- The place that an address stands for. -/
def resolve (hw : Hardware) (address : UInt16) : Place :=
  if address < 0x8000 then
    if hw.bootAnswers address then .boot address.toNat else hw.cartridge.romPlace address
  else if address < 0xA000 then
    .vram (hw.vramBank * vramBankSize + (address - 0x8000).toNat)
  else if address < 0xC000 then
    hw.cartridge.sramPlace address
  else if address < 0xFE00 then
    hw.wramPlace address
  else if address < 0xFEA0 then
    .oam (address - 0xFE00).toNat
  else if address < 0xFF00 then
    .openBus
  else if address < 0xFF80 then
    let n := (address - 0xFF00).toNat
    if isListed n then .io n else .openBus
  else if address < 0xFFFF then
    .hram (address - 0xFF80).toNat
  else
    .interruptEnable

/-- The byte kept at a place, if there is one. -/
def byte? (hw : Hardware) (place : Place) : Option UInt8 :=
  match place with
  | .boot n => hw.memories.boot[n]?
  | .rom _ _ | .sram _ | .rtc _ => hw.cartridge.byte? place
  | .vram n => hw.memories.vram[n]?
  | .wram n => hw.memories.wram[n]?
  | .oam n => hw.memories.oam[n]?
  | .io n => hw.memories.io[n]?
  | .hram n => hw.memories.hram[n]?
  | .interruptEnable => some hw.memories.interruptEnable
  | .register _ | .openBus => none

end Hardware

end Handheld
