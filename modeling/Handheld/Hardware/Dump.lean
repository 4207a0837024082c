import Handheld.Hardware.Bus

/-!
# The dump of used bytes

After a run the usage records of the memories can be handed to a disassembler. The
dump has one record for each used byte, arena by arena and by index within an arena.
A record is written as two words of eight bytes, the lowest byte first, so a dump can
be cut into its records again without knowing the machine it came from.
-/

set_option autoImplicit false

namespace Handheld

/-- One record of the dump of used bytes. -/
structure DumpRecord where
  /-- Which byte was used. -/
  identity : Identity
  /-- How it was used. -/
  usage : UsageRecord
  deriving DecidableEq, Inhabited

namespace DumpRecord

/-- The lowest `count` bytes of a word, the lowest first. -/
def bytesOfWord : Nat → UInt64 → List UInt8
  | 0, _ => []
  | count + 1, value => value.toUInt8 :: bytesOfWord count (value >>> 8)

/-- The word that bytes spell, the lowest first. -/
def wordOfBytes : List UInt8 → UInt64
  | [] => 0
  | byte :: bytes => byte.toUInt64 ||| (wordOfBytes bytes <<< 8)

/-- A record as it is written. -/
def toBytes (record : DumpRecord) : List UInt8 :=
  bytesOfWord 8 record.identity.word ++ bytesOfWord 8 record.usage.word

/-- The size of a written record. -/
def byteSize : Nat := 16

/-- The record that the bytes of one spell. -/
def ofBytes (bytes : List UInt8) : DumpRecord where
  identity := ⟨wordOfBytes (bytes.take 8)⟩
  usage := ⟨wordOfBytes (bytes.drop 8)⟩

/-- Records as they are written one after the other. -/
def writeAll (records : List DumpRecord) : List UInt8 := records.flatMap toBytes

/-- Cuts bytes into at most `count` records; what is left at the end is no record. -/
def readUpTo : Nat → List UInt8 → List DumpRecord
  | 0, _ => []
  | count + 1, bytes => ofBytes (bytes.take byteSize) :: readUpTo count (bytes.drop byteSize)

/-- The records that bytes spell. -/
def readAll (bytes : List UInt8) : List DumpRecord := readUpTo (bytes.length / byteSize) bytes

end DumpRecord

namespace Hardware

/-- The records of the used bytes among the places of one arena. -/
def dumpArena (ledger : Ledger) (size : Nat) (place : Nat → Place) : List DumpRecord :=
  (List.range size).filterMap fun n =>
    let usage := (ledger.note (place n)).record
    if usage.word = 0 then none else some ⟨(place n).identity, usage⟩

/-- The records of all used bytes of the memories, arena by arena. -/
def dump (hw : Hardware) (ledger : Ledger) : List DumpRecord :=
  dumpArena ledger hw.cartridge.rom.size (fun n => .rom n 0) ++
    dumpArena ledger hw.cartridge.sram.size .sram ++
    dumpArena ledger 0x8000 .wram ++
    dumpArena ledger 0x7F .hram ++
    dumpArena ledger 0x4000 .vram ++
    dumpArena ledger 0xA0 .oam

end Hardware

end Handheld
