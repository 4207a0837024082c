/-!
# Cartridge headers

A ROM image describes itself in a header that ends before address 0150. The header
tells the title, which hardware the cartridge brings along, and a checksum over
itself.
-/

set_option autoImplicit false

namespace Handheld

/-- The kinds of bank controller. -/
inductive ControllerKind where
  | none | mbc1 | mbc2 | mbc3 | mbc3Clock | mbc5 | flash
  deriving DecidableEq, Inhabited

/-- The name of a kind of controller. -/
def ControllerKind.name : ControllerKind → String
  | .none => "None"
  | .mbc1 => "Mbc1"
  | .mbc2 => "Mbc2"
  | .mbc3 => "Mbc3"
  | .mbc3Clock => "Mbc3Rtc"
  | .mbc5 => "Mbc5"
  | .flash => "FlashCart"

/-- Why an image or a cartridge is refused. -/
inductive CartridgeError where
  /-- The image ends before its header does. -/
  | tooSmall (size : Nat)
  /-- The controller is not the one that the header asks for. -/
  | controllerMismatch (expected active : ControllerKind)
  deriving DecidableEq, Inhabited

/-- The wording of a refusal. -/
def CartridgeError.message : CartridgeError → String
  | .tooSmall size =>
    "ROM image is " ++ toString size ++ " bytes, too small to hold a cartridge header"
  | .controllerMismatch expected active =>
    "cartridge header asks for " ++ expected.name ++ " but " ++ active.name ++ " is installed"

/-- What a header says. -/
structure Header where
  /-- The title, printable characters only. -/
  title : String := ""
  /-- Whether the program knows the color machine. -/
  color : Bool := false
  /-- The code of the cartridge hardware. -/
  cartridgeType : UInt8 := 0
  /-- The code of the ROM size. -/
  romSize : UInt8 := 0
  /-- The code of the RAM size. -/
  ramSize : UInt8 := 0
  /-- The checksum that the header claims. -/
  claimedChecksum : UInt8 := 0
  /-- The checksum that the header has. -/
  actualChecksum : UInt8 := 0
  deriving DecidableEq, Inhabited

namespace Header

/-- The least size of an image with a whole header. -/
def leastImage : Nat := 0x150

/-- The bytes of an image from one address up to another. -/
def field (image : Array UInt8) (first stop : Nat) : List UInt8 :=
  (image.extract first stop).toList

/-- Whether a byte is a printable character of the title. -/
def isPrintable (value : UInt8) : Bool := 0x20 ≤ value && value ≤ 0x7E

/-- The title in a field of bytes: all before the first zero that can be printed. -/
def titleOf (bytes : List UInt8) : String :=
  String.ofList (((bytes.takeWhile (· != 0)).filter isPrintable).map fun value =>
    Char.ofNat value.toNat)

/-- The checksum of a field of bytes. -/
def checksumOf (bytes : List UInt8) : UInt8 :=
  bytes.foldl (fun sum value => sum - value - 1) 0

/-- Reads the header of an image. -/
def parse (image : Array UInt8) : Except CartridgeError Header :=
  if image.size < leastImage then
    .error (.tooSmall image.size)
  else
    let byteAt (address : Nat) : UInt8 := image.getD address 0
    .ok
      { title := titleOf (field image 0x134 0x144)
        color := byteAt 0x143 &&& 0x80 != 0
        cartridgeType := byteAt 0x147
        romSize := byteAt 0x148
        ramSize := byteAt 0x149
        claimedChecksum := byteAt 0x14D
        actualChecksum := checksumOf (field image 0x134 0x14D) }

/-- Whether the header has the checksum it claims. -/
def checksumOk (header : Header) : Bool := header.claimedChecksum == header.actualChecksum

/-- The controller that the code of the cartridge hardware asks for. -/
def expectedController (header : Header) : ControllerKind :=
  let code := header.cartridgeType.toNat
  if 0x01 ≤ code ∧ code ≤ 0x03 then .mbc1
  else if 0x05 ≤ code ∧ code ≤ 0x06 then .mbc2
  else if 0x0F ≤ code ∧ code ≤ 0x10 then .mbc3Clock
  else if 0x11 ≤ code ∧ code ≤ 0x13 then .mbc3
  else if 0x19 ≤ code ∧ code ≤ 0x1E then .mbc5
  else .none

/-- The size of cartridge RAM that the header declares. -/
def sramBytes (header : Header) : Nat :=
  match header.ramSize.toNat with
  | 1 => 0x800
  | 2 => 0x2000
  | 3 => 0x8000
  | 4 => 0x20000
  | 5 => 0x10000
  | _ => 0

end Header

end Handheld
