import Handheld.Event
import Handheld.Cartridge.BankRegisters

/-!
# Flash cartridges

A flash cartridge carries a card with a large image. The program reads the card
sector by sector through a window of command registers near the end of the ROM area.
The window is shut until three keys have been written to three addresses in order.
Sectors and status bytes appear at the start of cartridge RAM.
-/

set_option autoImplicit false

namespace Handheld

/-- What a controller asks of the board after a write. -/
inductive CartridgeCommand where
  /-- Copies bytes into cartridge RAM. -/
  | fillSram (offset : Nat) (bytes : List UInt8)
  /-- Starts the program anew. -/
  | reboot
  deriving DecidableEq, Inhabited

/-- How many of the three keys have been given in order. -/
inductive Lock where
  | shut | firstKey | secondKey | opened
  deriving DecidableEq, Inhabited

/-- The state of a flash cartridge. -/
structure FlashCart where
  /-- The contents of the card. -/
  image : Array UInt8 := #[]
  /-- The bank in the upper ROM window. -/
  romBank : UInt8 := 1
  /-- The progress of the unlock sequence. -/
  lock : Lock := .shut
  /-- The sector that a read will fetch. -/
  sector : UInt32 := 0
  /-- How many sectors the program announced to read. -/
  sectorCount : UInt8 := 0
  deriving DecidableEq, Inhabited

namespace FlashCart

/-- The size of RAM that the program on the cartridge relies on. -/
def sramSize : Nat := 0x2000

/-- The size of a sector of the card. -/
def sectorSize : Nat := 512

/-- Whether the command registers answer. -/
def unlocked (cart : FlashCart) : Bool := cart.lock == .opened

/-- The bytes of the selected sector; past the end of the card they are all ones. -/
def sectorBytes (cart : FlashCart) : List UInt8 :=
  (List.range sectorSize).map fun i =>
    cart.image.getD (cart.sector.toNat * sectorSize + i) 0xFF

/-- A status byte at the start of cartridge RAM. -/
def status (value : UInt8) : CartridgeCommand := .fillSram 0 [value]

/-- The sector number after byte `index` of it has been replaced. -/
def withSectorByte (sector : UInt32) (index : UInt32) (value : UInt8) : UInt32 :=
  (sector &&& ~~~ ((0xFF : UInt32) <<< (8 * index))) ||| (value.toUInt32 <<< (8 * index))

/-- The cartridge after a write to its ROM area. -/
def write (cart : FlashCart) (address : UInt16) (value : UInt8) : FlashCart :=
  if address = 0x2000 then
    { cart with romBank := if value = 0xFF then 1 else value }
  else if address = 0x7F00 then
    { cart with lock := if value = 0xE1 then .firstKey else .shut }
  else if address = 0x7F10 then
    { cart with lock := if value = 0xE2 ∧ cart.lock = .firstKey then .secondKey else .shut }
  else if address = 0x7F20 then
    { cart with lock := if value = 0xE3 ∧ cart.lock = .secondKey then .opened else .shut }
  else if address = 0x7FF0 then
    { cart with lock := .shut }
  else if cart.unlocked then
    if 0x7FB0 ≤ address ∧ address ≤ 0x7FB3 then
      { cart with sector := withSectorByte cart.sector (address - 0x7FB0).toUInt32 value }
    else if address = 0x7FB4 then
      { cart with sectorCount := value }
    else
      cart
  else
    cart

/-- What a write to the ROM area asks of the board. -/
def command (cart : FlashCart) (address : UInt16) (value : UInt8) : Option CartridgeCommand :=
  if cart.unlocked then
    if address = 0x7F30 ∧ value = 1 then some (.fillSram 0 cart.sectorBytes)
    else if address = 0x7F30 ∧ value = 3 then some (status 0x01)
    else if address = 0x7F36 ∧ value = 3 then some (status 0x02)
    else if address = 0x7FE0 ∧ value = 0x80 then some .reboot
    else none
  else
    none

/-- Whether a register answers at an address whether or not the window is open. -/
def isLockAddress (address : UInt16) : Bool :=
  address == 0x2000 || address == 0x7F00 || address == 0x7F10 || address == 0x7F20 ||
    address == 0x7FF0

/-- Whether a register answers at an address while the window is open. -/
def isCommandAddress (address : UInt16) : Bool :=
  address == 0x7F30 || address == 0x7F36 || (0x7FB0 ≤ address && address ≤ 0x7FB4) ||
    address == 0x7FE0

/-- What there is to tell about a write to the ROM area: an announced sector, and
every write that no register answers. -/
def event? (cart : FlashCart) (address : UInt16) (value : UInt8) : Option Event :=
  if isLockAddress address then none
  else if cart.unlocked && isCommandAddress address then
    if address = 0x7FB4 then some (.sectorSelected cart.sector value) else none
  else
    some (.flashWrite address value)

end FlashCart

end Handheld
