import Handheld.Cartridge.Controller
import Handheld.Place

/-!
# Cartridges

A cartridge is a ROM, a RAM, five clock registers and a controller. A ROM is a
power of two of banks, at least two; an image is padded to that size. An offset
that the controller computes is reduced modulo the size of the memory it points
into.
-/

set_option autoImplicit false

namespace Handheld

namespace Rom

/-- The size of the smallest ROM chip, two banks. -/
def leastSize : Nat := 2 * romBankSize

/-- The size of the smallest chip, doubled a number of times. -/
def chipSize : Nat → Nat
  | 0 => leastSize
  | doublings + 1 => 2 * chipSize doublings

/-- The size of a chip is the least size, doubled so many times. -/
theorem chipSize_eq (doublings : Nat) : chipSize doublings = leastSize * Nat.pow 2 doublings := by
  induction doublings with
  | zero => rfl
  | succ doublings ih =>
    calc 2 * chipSize doublings
        _ = 2 * (leastSize * Nat.pow 2 doublings) := by rw [ih]
        _ = leastSize * (Nat.pow 2 doublings * 2) := by
          rw [Nat.mul_left_comm, Nat.mul_comm 2]

/-- A chip has bytes. -/
theorem chipSize_pos (doublings : Nat) : 0 < chipSize doublings := by
  induction doublings with
  | zero => decide
  | succ doublings ih => exact Nat.mul_pos (by decide) ih

end Rom

/-- The contents of a ROM chip. -/
structure Rom where
  /-- The bytes. -/
  bytes : Array UInt8
  /-- The size is that of a chip. -/
  size_eq : ∃ doublings, bytes.size = Rom.chipSize doublings

namespace Rom

/-- The size of a ROM chip. -/
def size (rom : Rom) : Nat := rom.bytes.size

/-- No ROM is empty. -/
theorem size_pos (rom : Rom) : 0 < rom.size := by
  obtain ⟨doublings, size_eq⟩ := rom.size_eq
  rw [size, size_eq]
  exact chipSize_pos doublings

/-- How often the smallest chip has to be doubled to hold an image of the given size. -/
def doublingsFor (size : Nat) : Nat :=
  if size ≤ leastSize then 0 else Nat.log2 ((size - 1) / leastSize) + 1

/-- The size of the smallest chip that holds an image of the given size. -/
def sizeFor (size : Nat) : Nat := chipSize (doublingsFor size)

/-- The chip chosen for an image holds all of it. -/
theorem le_sizeFor (size : Nat) : size ≤ sizeFor size := by
  unfold sizeFor doublingsFor
  split
  · exact ‹size ≤ leastSize›
  · have covers := @Nat.lt_log2_self ((size - 1) / leastSize)
    have : leastSize * ((size - 1) / leastSize + 1) ≤
        chipSize (Nat.log2 ((size - 1) / leastSize) + 1) := by
      rw [chipSize_eq]
      exact Nat.mul_le_mul_left _ covers
    have := Nat.div_add_mod (size - 1) leastSize
    have := Nat.mod_lt (size - 1) (show 0 < leastSize by decide)
    rw [Nat.mul_add] at *
    omega

/-- The bytes of an image at the start of the smallest chip that holds it; the rest
of the chip reads as all ones. -/
def padded (image : Array UInt8) : Array UInt8 :=
  image ++ Array.replicate (sizeFor image.size - image.size) 0xFF

/-- Padding brings an image to the size of its chip. -/
theorem size_padded (image : Array UInt8) : (padded image).size = sizeFor image.size := by
  have := le_sizeFor image.size
  simp only [padded, Array.size_append, Array.size_replicate]
  omega

/-- The chip that holds an image. -/
def ofImage (image : Array UInt8) : Rom where
  bytes := padded image
  size_eq := ⟨doublingsFor image.size, size_padded image⟩

end Rom

/-- A cartridge. -/
structure Cartridge where
  /-- What the image says about itself. -/
  header : Header
  /-- The ROM chip. -/
  rom : Rom
  /-- The contents of the RAM chip. -/
  sram : Array UInt8
  /-- The clock registers. -/
  clock : Vector UInt8 5 := Vector.replicate 5 0
  /-- The controller. -/
  controller : Controller

namespace Cartridge

/-- Puts a board together around an image and a controller. RAM is as large as the
header says or the controller needs. -/
def assemble (header : Header) (image : Array UInt8) (controller : Controller) : Cartridge where
  header
  rom := .ofImage image
  sram := Array.replicate (max header.sramBytes controller.leastSram) controller.sramOnes
  controller

/-- A cartridge with the given controller. -/
def withController (image : Array UInt8) (controller : Controller) :
    Except CartridgeError Cartridge := do
  let header ← Header.parse image
  return assemble header image controller

/-- A cartridge with the controller that its header asks for. -/
def ofImage (image : Array UInt8) : Except CartridgeError Cartridge := do
  let header ← Header.parse image
  return assemble header image (.ofKind header.expectedController)

/-- What the machine sees while no cartridge is inserted: bytes that encode no
instruction. -/
def empty : Cartridge :=
  assemble {} (Array.replicate (2 * romBankSize) 0xDD) .none

/-- The board without a cartridge has a ROM of the least size. -/
theorem size_rom_empty : empty.rom.size = 0x8000 := by
  show (Rom.padded (Array.replicate (2 * romBankSize) 0xDD)).size = _
  rw [Rom.size_padded, Array.size_replicate]
  decide

/-- Exchanges the controller; RAM grows to what the new one needs. -/
def install (cartridge : Cartridge) (controller : Controller) : Cartridge :=
  let ⟨header, rom, sram, clock, _⟩ := cartridge
  { header
    rom
    sram := sram ++ Array.replicate (controller.leastSram - sram.size) 0
    clock
    controller }

/-- Whether the controller is the one that the header asks for. -/
def checkController (cartridge : Cartridge) : Except CartridgeError Unit :=
  let expected := cartridge.header.expectedController
  let active := cartridge.controller.kind
  if expected = active then .ok () else .error (.controllerMismatch expected active)

/-- The number of the bank in the upper ROM window. -/
def romBank (cartridge : Cartridge) : Nat := cartridge.controller.romBank

/-- The place of an address in the ROM area. -/
def romPlace (cartridge : Cartridge) (address : UInt16) : Place :=
  .rom (cartridge.controller.mapRom address % cartridge.rom.size) address

/-- The place of an address in the RAM window, nowhere if RAM is shut or absent. -/
def sramPlace (cartridge : Cartridge) (address : UInt16) : Place :=
  if cartridge.controller.sramEnabled then
    match cartridge.controller.mapSram (address - 0xA000) with
    | .clock index => .rtc index
    | .ram offset =>
      if cartridge.sram.size = 0 then .openBus else .sram (offset % cartridge.sram.size)
  else
    .openBus

/-- The byte kept at a place of the cartridge, if there is one. -/
def byte? (cartridge : Cartridge) : Place → Option UInt8
  | .rom offset _ => cartridge.rom.bytes[offset]?
  | .sram n => cartridge.sram[n]?
  | .rtc n => cartridge.clock[n]?
  | _ => none

/-- Copies bytes into an array from an offset on; what would lie past its end is
dropped. -/
def overwrite (target : Array UInt8) (offset : Nat) : List UInt8 → Array UInt8
  | [] => target
  | value :: bytes => overwrite (target.setIfInBounds offset value) (offset + 1) bytes

/-- Carries out what the controller asked for; a reboot changes nothing on the board. -/
def obey (cartridge : Cartridge) : Option CartridgeCommand → Cartridge
  | some (.fillSram offset bytes) =>
    let ⟨header, rom, sram, clock, controller⟩ := cartridge
    { header, rom, sram := overwrite sram offset bytes, clock, controller }
  | _ => cartridge

/-- What a store at a place asks of the board. -/
def command (cartridge : Cartridge) (place : Place) (value : UInt8) : Option CartridgeCommand :=
  match place with
  | .rom _ address => cartridge.controller.command address value
  | _ => none

/-- The cartridge after a store. ROM does not change; a store there reaches the
controller. -/
def store (cartridge : Cartridge) (place : Place) (value : UInt8) : Cartridge :=
  match place with
  | .rom _ address =>
    let command := cartridge.controller.command address value
    let ⟨header, rom, sram, clock, controller⟩ := cartridge
    obey { header, rom, sram, clock, controller := controller.write address value } command
  | .sram n =>
    let ⟨header, rom, sram, clock, controller⟩ := cartridge
    { header, rom, sram := sram.setIfInBounds n (value ||| controller.sramOnes), clock, controller }
  | .rtc n =>
    let ⟨header, rom, sram, clock, controller⟩ := cartridge
    { header, rom, sram, clock := clock.setIfInBounds n value, controller }
  | _ => cartridge

end Cartridge

end Handheld
