import Handheld.Machine
import Handheld.Proofs.System
import Handheld.Proofs.Word
import Mathlib.Data.List.Nodup

/-!
# The dump loses nothing

The dump has neither a count nor a mark between its records, and it leaves out the bytes that
were never used. Still everything can be had back from it.

* A record takes sixteen bytes, from which both of its words are read back, so the bytes can be
  cut into the records that were written (`readAll_writeAll`).
* The cells of an arena are numbered by index, also those that a new controller adds
  (`identities_install`).
* The identity of a byte names its arena and its index (`byte?_identity`), as long as the index
  fits into 32 bits. So no two records share an identity.
* A byte of which there is no record was not used.
-/

set_option autoImplicit false

namespace Handheld

/-! ## Records and their bytes -/

namespace DumpRecord

/-- A word is written in as many bytes as are asked for. -/
theorem length_bytesOfWord (count : Nat) (value : UInt64) :
    (bytesOfWord count value).length = count := by
  induction count generalizing value with
  | zero => rfl
  | succ count ih => exact congrArg Nat.succ (ih (value >>> 8))

/-- Dropping the lowest byte divides by 256. -/
theorem toNat_shift_byte (value : UInt64) : (value >>> 8).toNat = value.toNat / 256 := by
  rw [UInt64.toNat_shiftRight, Nat.shiftRight_eq_div_pow]
  rfl

/-- A word is its lowest byte and the rest. -/
theorem join_lowest_byte (value : UInt64) :
    value.toUInt8.toUInt64 ||| ((value >>> 8) <<< 8) = value := by
  have bound := value.toNat_lt
  have small : value.toNat % 256 < 2 ^ 8 := Nat.mod_lt _ (by decide)
  have fits : (value.toNat / 256) <<< 8 % 2 ^ 64 = (value.toNat / 256) <<< 8 := by
    rw [Nat.shiftLeft_eq]
    exact Nat.mod_eq_of_lt (by omega)
  apply UInt64.toNat_inj.mp
  rw [UInt64.toNat_or, UInt64.toNat_shiftLeft, toNat_shift_byte, UInt8.toNat_toUInt64,
    UInt64.toNat_toUInt8]
  show value.toNat % 256 ||| (value.toNat / 256) <<< 8 % 2 ^ 64 = value.toNat
  rw [fits, Nat.or_comm, ← Nat.shiftLeft_add_eq_or_of_lt small, Nat.shiftLeft_eq]
  omega

/-- By induction on the number of bytes: shifted by one byte, the word fits into one less. -/
theorem wordOfBytes_bytesOfWord (count : Nat) {value : UInt64} (fits : value.toNat < 256 ^ count) :
    wordOfBytes (bytesOfWord count value) = value := by
  induction count generalizing value with
  | zero =>
    have none : value.toNat = 0 := Nat.lt_one_iff.mp fits
    exact (UInt64.toNat_inj.mp none).symm
  | succ count ih =>
    have rest : (value >>> 8).toNat < 256 ^ count := by
      rw [toNat_shift_byte]
      exact Nat.div_lt_of_lt_mul (by rwa [Nat.pow_succ, Nat.mul_comm] at fits)
    rw [bytesOfWord, wordOfBytes, ih rest]
    exact join_lowest_byte value

/-- A record takes its fixed number of bytes. -/
theorem length_toBytes (record : DumpRecord) : record.toBytes.length = byteSize := by
  rw [toBytes, List.length_append, length_bytesOfWord, length_bytesOfWord]
  rfl

/-- A record that is written is read back. -/
theorem ofBytes_toBytes (record : DumpRecord) : ofBytes record.toBytes = record := by
  obtain ⟨⟨identity⟩, ⟨usage⟩⟩ := record
  have half := length_bytesOfWord 8 identity
  unfold ofBytes toBytes
  rw [List.take_left' half, List.drop_left' half, wordOfBytes_bytesOfWord 8 identity.toNat_lt,
    wordOfBytes_bytesOfWord 8 usage.toNat_lt]

/-- A list of records takes as many bytes as its records. -/
theorem length_writeAll (records : List DumpRecord) :
    (writeAll records).length = byteSize * records.length := by
  induction records with
  | nil => rfl
  | cons record records ih =>
    rw [writeAll, List.flatMap_cons, List.length_append, length_toBytes]
    show byteSize + (writeAll records).length = byteSize * (records.length + 1)
    rw [ih, Nat.mul_succ, Nat.add_comm]

/-- A list of records that is written is read back. -/
theorem readUpTo_writeAll (records : List DumpRecord) :
    readUpTo records.length (writeAll records) = records := by
  induction records with
  | nil => rfl
  | cons record records ih =>
    have size := length_toBytes record
    rw [writeAll, List.flatMap_cons, List.length_cons, readUpTo, List.take_left' size,
      List.drop_left' size, ofBytes_toBytes]
    exact congrArg _ ih

/-- Bytes that were written as records are cut into these records again. -/
theorem readAll_writeAll (records : List DumpRecord) : readAll (writeAll records) = records := by
  have count : (writeAll records).length / byteSize = records.length := by
    rw [length_writeAll]
    exact Nat.mul_div_cancel_left _ (by decide)
  rw [readAll, count, readUpTo_writeAll]

/-- How the byte of an identity was used, as records tell it. A byte without a record was not. -/
def usageOf (records : List DumpRecord) (identity : Identity) : UsageRecord :=
  ((records.find? fun record => record.identity == identity).map (·.usage)).getD {}

/-- The usage of an identity is that of its record, if identities are distinct. -/
theorem usageOf_of_mem {records : List DumpRecord} (distinct : (records.map (·.identity)).Nodup)
    {record : DumpRecord} (member : record ∈ records) :
    usageOf records record.identity = record.usage := by
  induction records with
  | nil => exact absurd member List.not_mem_nil
  | cons first records ih =>
    obtain ⟨apart, distinct⟩ := List.nodup_cons.mp distinct
    unfold usageOf
    rw [List.find?_cons]
    by_cases same : first.identity = record.identity
    · obtain rfl | later := List.mem_cons.mp member
      · simp
      · exact absurd (List.mem_map.mpr ⟨record, later, same.symm⟩) apart
    · have later : record ∈ records := by
        obtain rfl | later := List.mem_cons.mp member
        · exact absurd rfl same
        · exact later
      rw [beq_eq_false_iff_ne.mpr same]
      exact ih distinct later

/-- An identity without a record has no usage. -/
theorem usageOf_of_not_mem {records : List DumpRecord} {identity : Identity}
    (absent : identity ∉ records.map (·.identity)) : usageOf records identity = {} := by
  have none : (records.find? fun record => record.identity == identity) = none := by
    rw [List.find?_eq_none]
    intro record member found
    exact absent (eq_of_beq found ▸ List.mem_map_of_mem member)
  rw [usageOf, none]
  rfl

end DumpRecord

/-! ## Arenas -/

/-- The arenas of the dump. -/
inductive Arena where
  | rom | sram | wram | hram | vram | oam
  deriving DecidableEq

namespace Arena

/-- All of them in the order of the dump. -/
def all : List Arena := [.rom, .sram, .wram, .hram, .vram, .oam]

/-- The place of a byte of an arena. -/
def place : Arena → Nat → Place
  | .rom, n => .rom n 0
  | .sram, n => .sram n
  | .wram, n => .wram n
  | .hram, n => .hram n
  | .vram, n => .vram n
  | .oam, n => .oam n

/-- The number that stands for an arena in an identity. -/
def tag : Arena → UInt64
  | .rom => 0
  | .vram => 1
  | .sram => 2
  | .wram => 3
  | .oam => 4
  | .hram => 6

/-- The arena that a number stands for. -/
def ofTag? : Nat → Option Arena
  | 0 => some .rom
  | 1 => some .vram
  | 2 => some .sram
  | 3 => some .wram
  | 4 => some .oam
  | 6 => some .hram
  | _ => none

/-- An arena is told by its tag. -/
theorem ofTag?_tag (arena : Arena) : ofTag? arena.tag.toNat = some arena := by
  cases arena <;> rfl

/-- Tags go up to six. -/
theorem tag_le (arena : Arena) : arena.tag.toNat ≤ 6 := by
  cases arena <;> decide

/-- The identity of a place is its tag and its index. -/
theorem identity_place (arena : Arena) (n : Nat) :
    (arena.place n).identity = .tagged arena.tag n := by
  cases arena <;> rfl

/-- No arena is listed twice. -/
theorem nodup_all : all.Nodup := by
  decide

/-- Every arena is listed. -/
theorem mem_all (arena : Arena) : arena ∈ all := by
  cases arena <;> decide

/-- The identities that bytes of an arena are given when it is set up, from some index on. -/
def numbered (arena : Arena) (first count : Nat) : List Identity :=
  (List.range' first count).map (.tagged arena.tag)

/-- The bytes that are added to an arena go on with the numbers where it ended. -/
theorem numbered_append (arena : Arena) (first count more : Nat) :
    arena.numbered first (count + more) =
      arena.numbered first count ++ arena.numbered (first + count) more := by
  unfold numbered
  rw [← List.range'_append_1, List.map_append]

/-- The number of bytes in an arena. -/
def size (hw : Hardware) : Arena → Nat
  | .rom => hw.cartridge.rom.size
  | .sram => hw.cartridge.sram.size
  | .wram => 0x8000
  | .hram => 0x7F
  | .vram => 0x4000
  | .oam => 0xA0

end Arena

/-- The arena and the index that an identity names. -/
def Identity.byte? (identity : Identity) : Option (Arena × Nat) :=
  (Arena.ofTag? (identity.word.toNat / 0x100000000)).map fun arena =>
    (arena, identity.word.toNat % 0x100000000)

/-- The number of an identity is its tag above 32 bits of index. -/
theorem Identity.toNat_tagged {arena : UInt64} {n : Nat} (few : arena.toNat ≤ 6)
    (small : n < 0x100000000) :
    (Identity.tagged arena n).word.toNat = arena.toNat * 0x100000000 + n := by
  have index : (UInt64.ofNat n).toNat = n := UInt64.toNat_ofNat_of_lt' (by
    show n < 2 ^ 64
    omega)
  have fits : arena.toNat <<< 32 % 2 ^ 64 = arena.toNat <<< 32 := by
    rw [Nat.shiftLeft_eq]
    exact Nat.mod_eq_of_lt (by omega)
  show ((arena <<< 32) ||| UInt64.ofNat n).toNat = _
  rw [UInt64.toNat_or, UInt64.toNat_shiftLeft, index]
  show arena.toNat <<< 32 % 2 ^ 64 ||| n = _
  rw [fits, ← Nat.shiftLeft_add_eq_or_of_lt small, Nat.shiftLeft_eq]

/-- The identity of a byte names its arena and its index. -/
theorem Arena.byte?_identity (arena : Arena) {n : Nat} (small : n < 0x100000000) :
    (arena.place n).identity.byte? = some (arena, n) := by
  have word := Identity.toNat_tagged arena.tag_le small
  have quotient : (arena.tag.toNat * 0x100000000 + n) / 0x100000000 = arena.tag.toNat := by omega
  have remainder : (arena.tag.toNat * 0x100000000 + n) % 0x100000000 = n := by omega
  rw [arena.identity_place, Identity.byte?, word, quotient, remainder, arena.ofTag?_tag]
  rfl

/-! ## Cells -/

namespace Cell

/-- Whether anything is on record about how a cell was used. -/
def isUsed (cell : Cell) : Bool := cell.note.record.word != 0

/-- What the dump keeps of a cell. -/
def dumpRecord (cell : Cell) : DumpRecord := ⟨cell.identity, cell.note.record⟩

/-- A cell and its record have one identity. -/
theorem identities_dumpRecord (cells : List Cell) :
    (cells.map dumpRecord).map (·.identity) = cells.map (·.identity) := by
  rw [List.map_map]
  rfl

/-- The records of the used cells tell of every cell. -/
theorem usageOf_dumpRecords {cells : List Cell} (distinct : (cells.map (·.identity)).Nodup)
    {cell : Cell} (member : cell ∈ cells) :
    DumpRecord.usageOf ((cells.filter isUsed).map dumpRecord) cell.identity =
      cell.note.record := by
  by_cases used : cell.isUsed = true
  · have recorded : cell.dumpRecord ∈ (cells.filter isUsed).map dumpRecord :=
      List.mem_map_of_mem (List.mem_filter.mpr ⟨member, used⟩)
    refine DumpRecord.usageOf_of_mem ?_ recorded
    rw [identities_dumpRecord]
    exact distinct.sublist (List.filter_sublist.map _)
  · have unused : cell.note.record.word = 0 := by simpa [isUsed] using used
    have absent : cell.identity ∉ ((cells.filter isUsed).map dumpRecord).map (·.identity) := by
      -- A record with this identity would be that of the cell itself.
      rw [identities_dumpRecord]
      intro claimed
      obtain ⟨other, kept, same⟩ := List.mem_map.mp claimed
      obtain ⟨there, recorded⟩ := List.mem_filter.mp kept
      have equal := List.inj_on_of_nodup_map distinct there member same
      rw [equal] at recorded
      exact used recorded
    rw [DumpRecord.usageOf_of_not_mem absent]
    exact congrArg UsageRecord.mk unused.symm

end Cell

namespace Machine

variable (m : Machine)

/-- The cells of an arena by index. -/
def arenaCells (arena : Arena) : List Cell :=
  (List.range (arena.size m.bus)).filterMap fun n => m.cell? (arena.place n)

/-- The cells of all arenas in the order of the dump. -/
def cells : List Cell := Arena.all.flatMap m.arenaCells

/-- An arena has a byte at each index below its size. -/
theorem byte?_isSome_iff (arena : Arena) (n : Nat) :
    (m.byte? (arena.place n)).isSome ↔ n < arena.size m.bus := by
  cases arena with
  | rom =>
    show (m.bus.cartridge.rom.bytes[n]?).isSome ↔ n < m.bus.cartridge.rom.bytes.size
    simp
  | sram =>
    show (m.bus.cartridge.sram[n]?).isSome ↔ n < m.bus.cartridge.sram.size
    simp
  | wram =>
    show (m.bus.memories.wram[n]?).isSome ↔ n < 0x8000
    simp
  | hram =>
    show (m.bus.memories.hram[n]?).isSome ↔ n < 0x7F
    simp
  | vram =>
    show (m.bus.memories.vram[n]?).isSome ↔ n < 0x4000
    simp
  | oam =>
    show (m.bus.memories.oam[n]?).isSome ↔ n < 0xA0
    simp

/-- There is a cell at each index of an arena and at no other. -/
theorem lt_size_of_cell? {arena : Arena} {n : Nat} {cell : Cell}
    (found : m.cell? (arena.place n) = some cell) : n < arena.size m.bus := by
  obtain ⟨value, byte, -⟩ := Option.map_eq_some_iff.mp found
  rw [← m.byte?_isSome_iff, byte]
  rfl

/-- There is a cell at each index below the size of an arena. -/
theorem exists_cell? {arena : Arena} {n : Nat} (inside : n < arena.size m.bus) :
    ∃ value, m.cell? (arena.place n) =
      some ⟨(arena.place n).identity, value, m.ledger.note (arena.place n)⟩ := by
  obtain ⟨value, byte⟩ := Option.isSome_iff_exists.mp ((m.byte?_isSome_iff arena n).mpr inside)
  refine ⟨value, ?_⟩
  rw [cell?, byte]
  rfl

/-- The cells of an arena have the identities that it is set up with. -/
theorem identities_arenaCells (arena : Arena) :
    (m.arenaCells arena).map (·.identity) = arena.numbered 0 (arena.size m.bus) := by
  unfold arenaCells Arena.numbered
  rw [List.map_filterMap, ← List.range_eq_range', ← List.filterMap_eq_map]
  apply List.filterMap_congr
  intro n member
  obtain ⟨value, found⟩ := m.exists_cell? (List.mem_range.mp member)
  rw [found]
  exact congrArg some (arena.identity_place n)

/-- Where a controller that is put in needs more RAM, the cells that come in addition are numbered
from the end of the others on, and those keep their identities. -/
theorem identities_install (controller : Controller) :
    ((m.install controller).arenaCells .sram).map (·.identity) =
      (m.arenaCells .sram).map (·.identity) ++
        Arena.sram.numbered m.bus.cartridge.sram.size
          (controller.leastSram - m.bus.cartridge.sram.size) := by
  have grown : Arena.sram.size (m.install controller).bus =
      Arena.sram.size m.bus + (controller.leastSram - m.bus.cartridge.sram.size) := by
    show (m.bus.cartridge.sram ++ Array.replicate _ 0).size = _
    rw [Array.size_append, Array.size_replicate]
    rfl
  rw [identities_arenaCells, identities_arenaCells, grown, Arena.numbered_append, Nat.zero_add]
  rfl

/-- The dump of an arena tells of each cell that was used. -/
theorem dumpArena_eq (arena : Arena) :
    Hardware.dumpArena m.ledger (arena.size m.bus) arena.place =
      ((m.arenaCells arena).filter Cell.isUsed).map Cell.dumpRecord := by
  unfold Hardware.dumpArena arenaCells
  rw [List.filter_filterMap, List.map_filterMap]
  apply List.filterMap_congr
  intro n member
  obtain ⟨value, found⟩ := m.exists_cell? (List.mem_range.mp member)
  rw [found]
  by_cases unused : (m.ledger.note (arena.place n)).record.word = 0
  · simp [Cell.isUsed, unused]
  · simp [Cell.isUsed, Cell.dumpRecord, unused]

/-- A dump writes the cells that were used. -/
theorem dump_eq : m.dump = (m.cells.filter Cell.isUsed).map Cell.dumpRecord := by
  have arenas : m.dump = Arena.all.flatMap fun arena =>
      Hardware.dumpArena m.ledger (arena.size m.bus) arena.place := by
    simp only [dump, Hardware.dump, Arena.all, List.flatMap_cons, List.flatMap_nil,
      List.append_nil, List.append_assoc]
    rfl
  rw [arenas, cells, List.filter_flatMap, List.map_flatMap]
  simp only [m.dumpArena_eq]

/-! ## Identities -/

section Small

variable {m} (small : ∀ arena : Arena, arena.size m.bus ≤ 0x100000000)

include small in
/-- The identities of the cells name all indices of all arenas, each once. -/
theorem byte?_identities :
    m.cells.map (fun cell => cell.identity.byte?) =
      (Arena.all.flatMap fun arena =>
        (List.range (arena.size m.bus)).map fun n => some (arena, n)) := by
  unfold cells
  rw [List.map_flatMap]
  congr 1
  funext arena
  have numbered : (m.arenaCells arena).map (fun cell => cell.identity.byte?) =
      (arena.numbered 0 (arena.size m.bus)).map Identity.byte? := by
    rw [← identities_arenaCells, List.map_map]
    rfl
  rw [numbered, Arena.numbered, ← List.range_eq_range', List.map_map]
  apply List.map_congr_left
  intro n member
  have inside := List.mem_range.mp member
  show (Identity.tagged arena.tag n).byte? = _
  rw [← arena.identity_place]
  exact arena.byte?_identity (Nat.lt_of_lt_of_le inside (small arena))

include small in
/-- No two cells of a machine have one identity. -/
theorem nodup_identities : (m.cells.map (·.identity)).Nodup := by
  apply List.Nodup.of_map Identity.byte?
  rw [List.map_map]
  show (m.cells.map fun cell => cell.identity.byte?).Nodup
  rw [byte?_identities small, List.nodup_flatMap]
  constructor
  · intro arena _
    refine List.nodup_range.map ?_
    intro n k same
    simpa using same
  · refine Arena.nodup_all.imp ?_
    intro arena other apart byte member member'
    obtain ⟨n, -, rfl⟩ := List.mem_map.mp member
    obtain ⟨k, -, same⟩ := List.mem_map.mp member'
    injection same with same
    exact apart (congrArg Prod.fst same).symm

end Small

/-- Every cell that can be found is among those listed. -/
theorem mem_cells {arena : Arena} {n : Nat} {cell : Cell}
    (found : m.cell? (arena.place n) = some cell) : cell ∈ m.cells := by
  refine List.mem_flatMap.mpr ⟨arena, arena.mem_all, ?_⟩
  exact List.mem_filterMap.mpr ⟨n, List.mem_range.mpr (m.lt_size_of_cell? found), found⟩

/-- Cut into records, the dump of a machine has one record for each cell of the six arenas that
was used, arena by arena and by index, and nothing is left over. The identities differ and name
arena and index, so how a cell was used can be looked up, also where it was not. -/
theorem dump_loses_nothing (rom : m.bus.cartridge.rom.size < 0x100000000)
    (sram : m.bus.cartridge.sram.size < 0x100000000) :
    let bytes := DumpRecord.writeAll m.dump
    let records := DumpRecord.readAll bytes
    bytes.length = 16 * records.length ∧
      records = (m.cells.filter Cell.isUsed).map Cell.dumpRecord ∧
      (records.map (·.identity)).Nodup ∧
      ∀ (arena : Arena) (n : Nat) (cell : Cell), m.cell? (arena.place n) = some cell →
        cell.identity.byte? = some (arena, n) ∧
          DumpRecord.usageOf records cell.identity = cell.note.record := by
  have small : ∀ arena : Arena, arena.size m.bus ≤ 0x100000000 := by
    intro arena
    cases arena with
    | rom => exact Nat.le_of_lt rom
    | sram => exact Nat.le_of_lt sram
    | _ => simp [Arena.size]
  have distinct := nodup_identities small
  intro bytes records
  have read : records = m.dump := DumpRecord.readAll_writeAll m.dump
  have written : records = (m.cells.filter Cell.isUsed).map Cell.dumpRecord :=
    read.trans m.dump_eq
  refine ⟨?_, written, ?_, ?_⟩
  · rw [read]
    exact DumpRecord.length_writeAll m.dump
  · rw [written, Cell.identities_dumpRecord]
    exact distinct.sublist (List.filter_sublist.map _)
  · intro arena n cell found
    have inside := m.lt_size_of_cell? found
    have identity : cell.identity = (arena.place n).identity := by
      obtain ⟨value, known⟩ := m.exists_cell? inside
      rw [found] at known
      rw [Option.some.inj known]
    constructor
    · rw [identity]
      exact arena.byte?_identity (Nat.lt_of_lt_of_le inside (small arena))
    · rw [written]
      exact Cell.usageOf_dumpRecords distinct (m.mem_cells found)

/-- A machine without a cartridge in which a byte of work RAM was marked. -/
def marked : Machine := (Machine.assemble .empty #[]).within fun s => s.mark (.wram 5) .data

/-- The example machine has the hardware of an empty cartridge. -/
theorem marked_bus : marked.bus = .assemble .empty #[] :=
  System.mark_bus _ _ _

/-- The record of the marked byte. -/
theorem record_marked : (marked.ledger.note (.wram 5)).record = ⟨0x0001020000000000⟩ := by
  have here : System.present (Machine.assemble .empty #[]).bus (.wram 5) = true := by
    show ((Vector.replicate 0x8000 (0 : UInt8))[5]?).isSome = true
    simp
  show (((Machine.assemble .empty #[]).toSystem.mark (.wram 5) .data).ledger.note _).record = _
  rw [System.mark_eq, if_pos here, Ledger.mark, Ledger.note_modify _ _ _ _ (by simp), if_pos rfl]
  decide

/-- The record of the byte that was marked is found in the dump. -/
theorem dump_of_marked :
    marked.bus.cartridge.rom.size < 0x100000000 ∧ marked.bus.cartridge.sram.size < 0x100000000 ∧
      DumpRecord.usageOf (DumpRecord.readAll (DumpRecord.writeAll marked.dump))
        (Place.wram 5).identity = ⟨0x0001020000000000⟩ := by
  have rom : marked.bus.cartridge.rom.size < 0x100000000 := by
    rw [marked_bus]
    show (Rom.padded (Array.replicate (2 * romBankSize) 0xDD)).size < _
    rw [Rom.size_padded, Array.size_replicate]
    decide
  have sram : marked.bus.cartridge.sram.size < 0x100000000 := by
    rw [marked_bus]
    decide
  have inside : 5 < Arena.wram.size marked.bus := by simp [Arena.size]
  obtain ⟨value, found⟩ := marked.exists_cell? inside
  obtain ⟨-, -, -, cells⟩ := marked.dump_loses_nothing rom sram
  exact ⟨rom, sram, (cells .wram 5 _ found).2.trans record_marked⟩

end Machine

end Handheld
