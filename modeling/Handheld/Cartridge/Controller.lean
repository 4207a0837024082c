import Handheld.Cartridge.FlashCart
import Handheld.Cartridge.Header

/-!
# Bank controllers

A controller stands between the bus and the memory of a cartridge. It maps an
address of the ROM area and an offset into the RAM window to offsets into the
memories, it takes the writes to the ROM area, and it tells the number of the ROM
bank in the upper window and whether RAM is open.
-/

set_option autoImplicit false

namespace Handheld

/-- The controller on a board. -/
inductive Controller where
  /-- No controller: the windows are fixed and RAM is always open. -/
  | none
  | mbc1 (m : Mbc1)
  | mbc2 (m : Mbc2)
  | mbc3 (m : Mbc3)
  | mbc5 (m : Mbc5)
  | flash (cart : FlashCart)
  deriving DecidableEq, Inhabited

namespace Controller

/-- A controller of the given kind after power-on; a flash cartridge has an empty card. -/
def ofKind : ControllerKind → Controller
  | .none => .none
  | .mbc1 => .mbc1 {}
  | .mbc2 => .mbc2 {}
  | .mbc3 => .mbc3 { hasClock := false }
  | .mbc3Clock => .mbc3 { hasClock := true }
  | .mbc5 => .mbc5 {}
  | .flash => .flash {}

/-- The kind of a controller. -/
def kind : Controller → ControllerKind
  | .none => .none
  | .mbc1 _ => .mbc1
  | .mbc2 _ => .mbc2
  | .mbc3 m => if m.hasClock then .mbc3Clock else .mbc3
  | .mbc5 _ => .mbc5
  | .flash _ => .flash

/-- The offset into ROM at which an address lands. -/
def mapRom (controller : Controller) (address : UInt16) : Nat :=
  match controller with
  | .none => address.toNat
  | .mbc1 m => m.mapRom address
  | .mbc2 m => mapUpperWindow m.romBank.toNat address
  | .mbc3 m => mapUpperWindow m.romBank.toNat address
  | .mbc5 m => mapUpperWindow m.romBank.toNat address
  | .flash cart => mapUpperWindow cart.romBank.toNat address

/-- Where an offset into the RAM window lands. -/
def mapSram (controller : Controller) (offset : UInt16) : SramSlot :=
  match controller with
  | .none | .flash _ => .ram offset.toNat
  | .mbc1 m => m.mapSram offset
  | .mbc2 m => m.mapSram offset
  | .mbc3 m => m.mapSram offset
  | .mbc5 m => m.mapSram offset

/-- The controller after a write to the ROM area. -/
def write (controller : Controller) (address : UInt16) (value : UInt8) : Controller :=
  match controller with
  | .none => .none
  | .mbc1 m => .mbc1 (m.write address value)
  | .mbc2 m => .mbc2 (m.write address value)
  | .mbc3 m => .mbc3 (m.write address value)
  | .mbc5 m => .mbc5 (m.write address value)
  | .flash cart => .flash (cart.write address value)

/-- What a write to the ROM area asks of the board. -/
def command (controller : Controller) (address : UInt16) (value : UInt8) :
    Option CartridgeCommand :=
  match controller with
  | .flash cart => cart.command address value
  | _ => Option.none

/-- What there is to tell about a write to the ROM area. -/
def event? (controller : Controller) (address : UInt16) (value : UInt8) : Option Event :=
  match controller with
  | .flash cart => cart.event? address value
  | _ => Option.none

/-- The number of the bank in the upper ROM window. -/
def romBank : Controller → Nat
  | .none => 1
  | .mbc1 m => m.romBank
  | .mbc2 m => m.romBank.toNat
  | .mbc3 m => m.romBank.toNat
  | .mbc5 m => m.romBank.toNat
  | .flash cart => cart.romBank.toNat

/-- Whether cartridge RAM is open. -/
def sramEnabled : Controller → Bool
  | .none | .flash _ => true
  | .mbc1 m => m.sramEnabled
  | .mbc2 m => m.sramEnabled
  | .mbc3 m => m.sramEnabled
  | .mbc5 m => m.sramEnabled

/-- The size of RAM that a controller needs whatever the header says. -/
def leastSram : Controller → Nat
  | .mbc2 _ => Mbc2.sramSize
  | .flash _ => FlashCart.sramSize
  | _ => 0

/-- The bits that read as one in every byte of RAM: the built-in RAM of the second
controller has half-bytes only. -/
def sramOnes : Controller → UInt8
  | .mbc2 _ => 0xF0
  | _ => 0x00

end Controller

end Handheld
