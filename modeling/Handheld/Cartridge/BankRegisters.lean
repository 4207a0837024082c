/-!
# Bank registers

The bank controllers that are plain registers. A write to the ROM area sets one of
them; from all of them follows which bytes the ROM and RAM windows show. The
offsets computed here may lie past the end of the memory on the board.
-/

set_option autoImplicit false

namespace Handheld

/-- Where an access to the RAM window lands. -/
inductive SramSlot where
  /-- At an offset into cartridge RAM. -/
  | ram (offset : Nat)
  /-- At a clock register. -/
  | clock (index : Nat)
  deriving DecidableEq, Inhabited

/-- The size of a ROM bank. -/
def romBankSize : Nat := 0x4000

/-- The size of a bank of cartridge RAM. -/
def sramBankSize : Nat := 0x2000

/-- The offset of an address within its ROM window. -/
def windowOffset (address : UInt16) : Nat := address.toNat % romBankSize

/-- The offset into ROM at which an address lands when the upper window shows
`bank` and the lower one bank 0. -/
def mapUpperWindow (bank : Nat) (address : UInt16) : Nat :=
  if address < 0x4000 then address.toNat else bank * romBankSize + windowOffset address

/-- A bank number in which zero stands for one. -/
def nonzeroBank (bank : UInt8) : UInt8 := if bank = 0 then 1 else bank

/-- Whether the lower half of a byte is the key that opens cartridge RAM. -/
def opensSram (value : UInt8) : Bool := value &&& 0x0F == 0x0A

/-- The first controller: a five-bit bank that is never zero, two bits more that
extend it, and a mode in which these two bits also choose the lower ROM window and
the RAM bank. -/
structure Mbc1 where
  /-- Whether RAM is open. -/
  sramEnabled : Bool := false
  /-- The lower five bits of the ROM bank. -/
  lowBank : UInt8 := 1
  /-- The two bits above them. -/
  highBank : UInt8 := 0
  /-- Whether the two bits also choose the other windows. -/
  wideMode : Bool := false
  deriving DecidableEq, Inhabited

namespace Mbc1

/-- The bank in the upper ROM window. -/
def romBank (m : Mbc1) : Nat := m.highBank.toNat * 32 + m.lowBank.toNat

/-- The offset into ROM at which an address lands. -/
def mapRom (m : Mbc1) (address : UInt16) : Nat :=
  if address < 0x4000 then
    if m.wideMode then m.highBank.toNat * 32 * romBankSize + windowOffset address
    else windowOffset address
  else
    m.romBank * romBankSize + windowOffset address

/-- Where an offset into the RAM window lands. -/
def mapSram (m : Mbc1) (offset : UInt16) : SramSlot :=
  .ram ((if m.wideMode then m.highBank.toNat else 0) * sramBankSize + offset.toNat)

/-- Writes to the register that an address in the ROM area stands for. -/
def write (m : Mbc1) (address : UInt16) (value : UInt8) : Mbc1 :=
  if address < 0x2000 then { m with sramEnabled := opensSram value }
  else if address < 0x4000 then { m with lowBank := nonzeroBank (value &&& 0x1F) }
  else if address < 0x6000 then { m with highBank := value &&& 0x03 }
  else { m with wideMode := value &&& 0x01 != 0 }

end Mbc1

/-- The second controller: a four-bit bank that is never zero and 512 half-bytes of
RAM of its own. Address bit 8 chooses between its two registers. -/
structure Mbc2 where
  /-- Whether RAM is open. -/
  sramEnabled : Bool := false
  /-- The bank in the upper ROM window. -/
  romBank : UInt8 := 1
  deriving DecidableEq, Inhabited

namespace Mbc2

/-- The size of the built-in RAM. -/
def sramSize : Nat := 0x200

/-- Where an offset into the RAM window lands; the RAM repeats through the window. -/
def mapSram (_ : Mbc2) (offset : UInt16) : SramSlot := .ram (offset.toNat % sramSize)

/-- Writes to the register that an address in the ROM area stands for. -/
def write (m : Mbc2) (address : UInt16) (value : UInt8) : Mbc2 :=
  if address ≥ 0x4000 then m
  else if address &&& 0x0100 != 0 then { m with romBank := nonzeroBank (value &&& 0x0F) }
  else { m with sramEnabled := opensSram value }

end Mbc2

/-- The third controller: an eight-bit bank, four RAM banks and, on some boards, a
clock. The clock registers hold what is written to them. -/
structure Mbc3 where
  /-- Whether the board has a clock. -/
  hasClock : Bool
  /-- Whether RAM and clock are open. -/
  sramEnabled : Bool := false
  /-- The bank in the upper ROM window. -/
  romBank : UInt8 := 1
  /-- The RAM bank or clock register in the RAM window. -/
  sramSelect : UInt8 := 0
  deriving DecidableEq, Inhabited

namespace Mbc3

/-- Where an offset into the RAM window lands. -/
def mapSram (m : Mbc3) (offset : UInt16) : SramSlot :=
  let select := m.sramSelect.toNat
  if m.hasClock ∧ 0x08 ≤ select ∧ select ≤ 0x0C then .clock (select - 0x08)
  else .ram (select % 4 * sramBankSize + offset.toNat)

/-- Writes to the register that an address in the ROM area stands for. -/
def write (m : Mbc3) (address : UInt16) (value : UInt8) : Mbc3 :=
  if address < 0x2000 then { m with sramEnabled := value == 0x0A }
  else if address < 0x4000 then { m with romBank := value }
  else if address < 0x6000 then { m with sramSelect := value }
  else m

end Mbc3

/-- The fifth controller: a nine-bit bank written in two parts and a four-bit RAM
bank. -/
structure Mbc5 where
  /-- Whether RAM is open. -/
  sramEnabled : Bool := false
  /-- The bank in the upper ROM window. -/
  romBank : UInt16 := 1
  /-- The bank in the RAM window. -/
  sramBank : UInt8 := 0
  deriving DecidableEq, Inhabited

namespace Mbc5

/-- Where an offset into the RAM window lands. -/
def mapSram (m : Mbc5) (offset : UInt16) : SramSlot :=
  .ram (m.sramBank.toNat * sramBankSize + offset.toNat)

/-- Writes to the register that an address in the ROM area stands for. -/
def write (m : Mbc5) (address : UInt16) (value : UInt8) : Mbc5 :=
  if address < 0x2000 then { m with sramEnabled := value == 0x0A }
  else if address < 0x3000 then
    { m with romBank := (m.romBank &&& 0x0100) ||| value.toUInt16 }
  else if address < 0x4000 then
    let upper := (value &&& 0x01).toUInt16 <<< (8 : UInt16)
    { m with romBank := (m.romBank &&& (0x00FF : UInt16)) ||| upper }
  else if address < 0x6000 then { m with sramBank := value &&& 0x0F }
  else m

end Mbc5

end Handheld
