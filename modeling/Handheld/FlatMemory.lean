import Handheld.AddressSpace

/-!
# Flat memory

The plainest address space: every address is a byte of work RAM of its own, and
the two interrupt registers are the bytes at FF0F and FFFF. There are no devices,
so a store does what it says and nothing else.
-/

set_option autoImplicit false

namespace Handheld

/-- Memory without devices. -/
structure FlatMemory where
  /-- One byte for each address. -/
  bytes : Vector UInt8 0x10000 := Vector.replicate 0x10000 0
  deriving DecidableEq

namespace FlatMemory

/-- The byte at an index, if there is one. -/
def byte? (memory : FlatMemory) : Place → Option UInt8
  | .wram n => memory.bytes[n]?
  | _ => none

/-- Puts a byte at a place; all places but those of work RAM ignore it. -/
def store (memory : FlatMemory) (place : Place) (value : UInt8) : FlatMemory :=
  match place with
  | .wram n => ⟨memory.bytes.setIfInBounds n value⟩
  | _ => memory

/-- The byte at an address. -/
def byteAt (memory : FlatMemory) (address : UInt16) : UInt8 :=
  memory.bytes.get ⟨address.toNat, address.toNat_lt⟩

instance : AddressSpace FlatMemory where
  resolve _ address := .wram address.toNat
  byte? := byte?
  load memory place := (memory.byte? place).getD 0xFF
  store := store
  interruptFlag memory := memory.byteAt 0xFF0F &&& 0x1F
  setInterruptFlag memory value := memory.store (.wram 0xFF0F) (value &&& 0x1F)
  interruptEnable memory := memory.byteAt 0xFFFF

/-- Puts bytes at successive addresses. -/
def patch (memory : FlatMemory) (address : UInt16) (bytes : List UInt8) : FlatMemory :=
  match bytes with
  | [] => memory
  | value :: bytes => (memory.store (.wram address.toNat) value).patch (address + 1) bytes

end FlatMemory

end Handheld
