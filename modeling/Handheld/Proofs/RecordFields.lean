import Handheld.Machine
import Handheld.Proofs.Records
import Mathlib.Data.Nat.Bitwise

/-!
# The fields of a record stay apart

A usage record is one word, and of those who write to it none sees a field only: a mark adds its
kinds of use to the whole word, and a destination is added to what a mask has left of it. Still
each field tells its own story, however marks and destinations follow each other
(`fields_foldl_book`). The kinds of use are those of all marks, the bank is that of the last mark,
of which twelve bits are kept, and the lower forty bits are the last destination. For marks this is
a matter of masks alone. A destination has to stay below the kinds of use, and so does every
identity that is given to a byte of a machine, as long as ROM and cartridge RAM have no more than
2^40 bytes (`Machine.fits_of_narrow`, `Machine.narrow_of_cell`).

On the ledger a change of a record reaches one byte. So the record of a byte is told by the
changes that were made at its place, whatever was booked elsewhere in between.
-/

set_option autoImplicit false

namespace Handheld

/-! ## Identities -/

/-- Whether an identity leaves the field of the kinds of use alone. -/
def Identity.Fits (identity : Identity) : Prop := identity.word.toNat < 2 ^ 40

/-- A small index under one of few tags fits the field of a destination. -/
theorem Identity.fits_tagged {arena : UInt64} {n : Nat} (few : arena.toNat < 0x100)
    (small : n < 2 ^ 40) : (Identity.tagged arena n).Fits := by
  have index : (UInt64.ofNat n).toNat < 2 ^ 40 := by
    rw [UInt64.toNat_ofNat']
    exact Nat.lt_of_le_of_lt (Nat.mod_le _ _) small
  have raised : (arena <<< 32).toNat < 2 ^ 40 := by
    rw [UInt64.toNat_shiftLeft, Nat.shiftLeft_eq]
    exact Nat.lt_of_le_of_lt (Nat.mod_le _ _) (Nat.mul_lt_mul_of_pos_right few (by decide))
  show ((arena <<< 32) ||| UInt64.ofNat n).toNat < 2 ^ 40
  rw [UInt64.toNat_or]
  exact Nat.or_lt_two_pow raised index

/-- An identity that fits sets no bit from 40 on. -/
theorem Identity.bit_of_fits {identity : Identity} (fits : identity.Fits) {i : Nat}
    (above : 40 ≤ i) : identity.word.toBitVec.getLsbD i = false :=
  Nat.testBit_lt_two_pow (Nat.lt_of_lt_of_le fits (Nat.pow_le_pow_right (by decide) above))

/-- The index of a place in ROM or cartridge RAM fits into the lower forty bits of a record. Of
the other memories there is a fixed amount. -/
def Place.Narrow : Place → Prop
  | .rom offset _ => offset < 2 ^ 40
  | .sram n => n < 2 ^ 40
  | _ => True

namespace Machine

/-- The identity of a byte of a machine fits into the lower forty bits, if it has one at all. -/
theorem fits_of_narrow {m : Machine} {place : Place} (here : (m.cell? place).isSome = true)
    (narrow : place.Narrow) (tracked : place.identity ≠ .untracked) : place.identity.Fits := by
  have byte : (m.byte? place).isSome = true := by
    rwa [cell?, Option.isSome_map] at here
  have within : ∀ {size n : Nat} {bytes : Vector UInt8 size}, bytes[n]?.isSome = true →
      size ≤ 2 ^ 40 → n < 2 ^ 40 := by
    intro size n bytes found small
    have bound : n < size := by simpa using found
    omega
  cases place with
  | register | boot | rtc | openBus => exact absurd rfl tracked
  | rom | sram => exact Identity.fits_tagged (by decide) narrow
  | vram | wram | oam | hram => exact Identity.fits_tagged (by decide) (within byte (by decide))
  | interruptEnable => exact Identity.fits_tagged (by decide) (by decide)
  | io n =>
    have bound : n < 0x80 := by
      have found : (m.bus.memories.io[n]?).isSome = true := byte
      simpa using found
    simp only [Place.identity] at tracked ⊢
    split at tracked
    next => exact absurd rfl tracked
    next other =>
      rw [if_neg other]
      exact Identity.fits_tagged (by decide) (by omega)

/-- No memory of the machine has more bytes than the lower forty bits of a record can count. -/
def Countable (m : Machine) : Prop :=
  m.bus.cartridge.rom.size ≤ 2 ^ 40 ∧ m.bus.cartridge.sram.size ≤ 2 ^ 40

/-- In a machine whose arenas can be counted, every place with a cell is narrow. -/
theorem narrow_of_cell {m : Machine} (countable : m.Countable) {place : Place} {cell : Cell}
    (here : m.cell? place = some cell) : place.Narrow := by
  have inside : ∀ {n : Nat} {bytes : Array UInt8} {value : UInt8}, bytes[n]? = some value →
      bytes.size ≤ 2 ^ 40 → n < 2 ^ 40 := by
    intro n bytes value found small
    obtain ⟨bound, -⟩ := Array.getElem?_eq_some_iff.mp found
    omega
  obtain ⟨value, kept, -⟩ := Option.map_eq_some_iff.mp here
  cases place with
  | rom offset address => exact inside kept countable.1
  | sram n => exact inside kept countable.2
  | _ => trivial

end Machine

namespace UsageRecord

/-! ## The third field -/

/-- The field of the place the byte was last moved to. -/
def destinationMask : UInt64 := 0xFFFFFFFFFF

/-- The identity of the place the byte was last moved to, zero if there is none on record. -/
def destination (record : UsageRecord) : Identity := ⟨record.word &&& destinationMask⟩

/-- The field of the destination is the low 40 bits. -/
theorem bit_destinationMask (i : Nat) :
    destinationMask.toBitVec.getLsbD i = decide (i < 40) := by
  have low : destinationMask.toNat = 2 ^ 40 - 1 := rfl
  show destinationMask.toNat.testBit i = _
  rw [low, Nat.testBit_two_pow_sub_one]

/-- A destination is told by the low 40 bits. -/
theorem destination_congr {first second : UsageRecord}
    (same : ∀ i < 40, first.bit i = second.bit i) : first.destination = second.destination := by
  apply congrArg Identity.mk
  apply UInt64.toBitVec_inj.mp
  apply BitVec.eq_of_getLsbD_eq
  intro i inside
  rw [UInt64.toBitVec_and, UInt64.toBitVec_and, BitVec.getLsbD_and, BitVec.getLsbD_and,
    bit_destinationMask]
  by_cases low : i < 40
  · exact congrArg (· && decide (i < 40)) (same i low)
  · simp [low]

/-- An identity that fits is its own destination. -/
theorem destination_of_fits {identity : Identity} (fits : identity.Fits) :
    (UsageRecord.mk identity.word).destination = identity := by
  apply congrArg Identity.mk
  apply UInt64.toBitVec_inj.mp
  apply BitVec.eq_of_getLsbD_eq
  intro i inside
  rw [UInt64.toBitVec_and, BitVec.getLsbD_and, bit_destinationMask]
  by_cases low : i < 40
  · simp [low]
  · simp [low, Identity.bit_of_fits fits (Nat.not_lt.mp low)]

/-! ## What a change makes of each field -/

/-- The field of the bank is the twelve bits from 48 on. -/
theorem bankMask_bit (i : Nat) : bankMask.toBitVec.getLsbD (48 + i) = decide (i < 12) := by
  have field : bankMask.toNat = (2 ^ 12 - 1) <<< 48 := rfl
  show bankMask.toNat.testBit (48 + i) = _
  rw [field, Nat.testBit_shiftLeft, Nat.add_sub_cancel_left, Nat.testBit_two_pow_sub_one]
  simp

/-- The bank by its bits. -/
theorem testBit_bank (record : UsageRecord) (i : Nat) :
    record.bank.testBit i = (decide (i < 12) && record.bit (48 + i)) := by
  have shifted : record.bank = (record.word &&& bankMask).toNat >>> 48 := rfl
  have both : (record.word &&& bankMask).toNat.testBit (48 + i) =
      (record.bit (48 + i) && bankMask.toBitVec.getLsbD (48 + i)) := by
    rw [UInt64.toNat_and, Nat.testBit_and]
    rfl
  rw [shifted, Nat.testBit_shiftRight, both, bankMask_bit, Bool.and_comm]

/-- Of the bank of a mark twelve bits are kept. -/
theorem bank_mark (record : UsageRecord) (usage : Usage) (bank : Nat) :
    (record.mark usage bank).bank = bank % 0x1000 := by
  apply Nat.eq_of_testBit_eq
  intro i
  rw [testBit_bank, show 0x1000 = 2 ^ 12 by rfl, Nat.testBit_mod_two_pow]
  by_cases low : i < 12
  · have raised : (UInt64.ofNat bank <<< 48).toBitVec.getLsbD (48 + i) = bank.testBit i := by
      have inside : 48 + i < 64 := by omega
      show (UInt64.ofNat bank <<< 48).toNat.testBit (48 + i) = _
      rw [UInt64.toNat_shiftLeft, UInt64.toNat_ofNat']
      show ((bank % 2 ^ 64) <<< 48 % 2 ^ 64).testBit (48 + i) = _
      rw [Nat.testBit_mod_two_pow, Nat.testBit_shiftLeft, Nat.add_sub_cancel_left,
        Nat.testBit_mod_two_pow]
      have short : i < 64 := by omega
      simp [inside, short]
    rw [bit_mark _ _ _ (by omega), bankMask_bit, if_pos (decide_eq_true low), raised]
  · simp [low]

/-- A mark leaves the destination alone. -/
theorem destination_mark (record : UsageRecord) (usage : Usage) (bank : Nat) :
    (record.mark usage bank).destination = record.destination := by
  apply destination_congr
  intro i low
  rw [bit_mark _ _ _ (by omega), bankMask_low (by omega)]
  simp [show ¬ 40 ≤ i by omega]

/-- The masks that a destination leaves standing are those of the two other fields. -/
theorem bit_recordDestination (record : UsageRecord) (identity : Identity) (i : Nat) :
    (record.recordDestination identity).bit i =
      ((record.bit i && (usageMask ||| bankMask).toBitVec.getLsbD i) ||
        identity.word.toBitVec.getLsbD i) := by
  simp only [recordDestination, bit, UInt64.toBitVec_or, UInt64.toBitVec_and, BitVec.getLsbD_or,
    BitVec.getLsbD_and]

variable {identity : Identity} (fits : identity.Fits)

include fits

/-- Recording a destination that fits leaves the kinds of use alone. -/
theorem usage_recordDestination_of_fits (record : UsageRecord) :
    (record.recordDestination identity).usage = record.usage := by
  have none : ∀ i < 8, (UsageRecord.mk identity.word).usage.has i = false := by
    intro i inside
    rw [usage_has _ inside]
    exact Identity.bit_of_fits fits (by omega)
  apply Usage.eq_of_has
  intro i inside
  rw [usage_recordDestination, Usage.has_union, none i inside, Bool.or_false]

/-- Recording a destination leaves the bank alone. -/
theorem bank_recordDestination (record : UsageRecord) :
    (record.recordDestination identity).bank = record.bank := by
  apply Nat.eq_of_testBit_eq
  intro i
  rw [testBit_bank, testBit_bank, bit_recordDestination, Identity.bit_of_fits fits (by omega),
    UInt64.toBitVec_or, BitVec.getLsbD_or, bankMask_bit]
  by_cases low : i < 12
  · simp [low]
  · simp [low]

/-- A destination that fits is read back. -/
theorem destination_recordDestination (record : UsageRecord) :
    (record.recordDestination identity).destination = identity := by
  have masked : ∀ i : Fin 40, (usageMask ||| bankMask).toBitVec.getLsbD i = false := by decide
  have low : (record.recordDestination identity).destination =
      (UsageRecord.mk identity.word).destination := by
    apply destination_congr
    intro i inside
    rw [bit_recordDestination, masked ⟨i, inside⟩, Bool.and_false, Bool.false_or]
    rfl
  rw [low, destination_of_fits fits]

end UsageRecord

/-! ## Rows of changes -/

/-- A change of a usage record. -/
inductive Booking where
  | mark (usage : Usage) (bank : Nat)
  | moved (destination : Identity)
  deriving DecidableEq

namespace Booking

/-- The kinds of use that a change adds. -/
def usage? : Booking → Option Usage
  | mark usage _ => some usage
  | moved _ => none

/-- The bank under which a change was made, if it is kept. -/
def bank? : Booking → Option Nat
  | mark _ bank => some bank
  | moved _ => none

/-- The destination that a change puts on record. -/
def destination? : Booking → Option Identity
  | mark _ _ => none
  | moved destination => some destination

end Booking

namespace UsageRecord

/-- The record after a change. -/
def book (record : UsageRecord) : Booking → UsageRecord
  | .mark usage bank => record.mark usage bank
  | .moved destination => record.recordDestination destination

/-- After a row of changes each field is told by the changes that are meant for it. By induction on
the row: one change leaves two of the fields, or one of them, as they were. -/
theorem fields_foldl_book (record : UsageRecord) {bookings : List Booking}
    (fits : ∀ destination ∈ bookings.filterMap Booking.destination?, destination.Fits) :
    let last := bookings.foldl book record
    last.usage = (bookings.filterMap Booking.usage?).foldl Usage.union record.usage ∧
      last.bank = ((bookings.filterMap Booking.bank?).getLast?.map (· % 0x1000)).getD record.bank ∧
      last.destination =
        (bookings.filterMap Booking.destination?).getLast?.getD record.destination := by
  induction bookings generalizing record with
  | nil => exact ⟨rfl, rfl, rfl⟩
  | cons booking bookings ih =>
    cases booking with
    | mark usage bank =>
      obtain ⟨used, banked, moved⟩ := ih (record.mark usage bank) fits
      refine ⟨?_, ?_, ?_⟩
      · exact used.trans (by rw [usage_mark]; rfl)
      · refine banked.trans ?_
        show _ = Option.getD (Option.map _ (List.getLast? (bank :: _))) _
        rw [bank_mark, List.getLast?_cons]
        cases (bookings.filterMap Booking.bank?).getLast? <;> rfl
      · exact moved.trans (by rw [destination_mark]; rfl)
    | moved destination =>
      obtain ⟨here, later⟩ := List.forall_mem_cons.mp
        (show ∀ d ∈ destination :: bookings.filterMap Booking.destination?, d.Fits from fits)
      obtain ⟨used, banked, moved⟩ := ih (record.recordDestination destination) later
      refine ⟨?_, ?_, ?_⟩
      · exact used.trans (by rw [usage_recordDestination_of_fits here]; rfl)
      · exact banked.trans (by rw [bank_recordDestination here]; rfl)
      · refine moved.trans ?_
        show _ = Option.getD (List.getLast? (destination :: _)) _
        rw [destination_recordDestination here, List.getLast?_cons]
        rfl

end UsageRecord

/-! ## Changes all over a ledger -/

namespace Ledger

/-- A change that is made at a place. -/
structure Entry where
  place : Place
  booking : Booking

/-- The changes that a row of entries makes at a place. -/
def changesAt (place : Place) (entries : List Entry) : List Booking :=
  (entries.filter fun entry => entry.place.home = place.home).map (·.booking)

/-- The ledger after a change. -/
def book (ledger : Ledger) (entry : Entry) : Ledger :=
  match entry.booking with
  | .mark usage bank => ledger.mark entry.place usage bank
  | .moved destination => ledger.recordDestination entry.place destination

/-- Every entry changes the record of one note. -/
theorem book_eq_modify (ledger : Ledger) (entry : Entry) :
    ledger.book entry =
      ledger.modify entry.place
        fun note => { note with record := note.record.book entry.booking } := by
  obtain ⟨place, booking⟩ := entry
  cases booking <;> rfl

/-- An entry is added to the notes of all places with its home. -/
theorem note_book (ledger : Ledger) (entry : Entry) {place : Place} (answers : place ≠ .openBus) :
    (ledger.book entry).note place =
      if entry.place.home = place.home then
        { ledger.note place with record := (ledger.note place).record.book entry.booking }
      else ledger.note place := by
  by_cases nowhere : entry.place = .openBus
  · have apart : ¬ entry.place.home = place.home := by
      rw [nowhere]
      cases place <;> first | contradiction | simp [Place.home]
    rw [if_neg apart, book_eq_modify, nowhere]
    rfl
  · rw [book_eq_modify, note_modify _ _ _ _ nowhere]
    by_cases same : entry.place.home = place.home
    · rw [if_pos same, if_pos same.symm, ledger.note_of_home same]
    · rw [if_neg same, if_neg (fun other => same other.symm)]

/-- A record is told by the changes at its own place. -/
theorem note_foldl_book (ledger : Ledger) (entries : List Entry) {place : Place}
    (answers : place ≠ .openBus) :
    (entries.foldl book ledger).note place =
      { ledger.note place with
        record :=
          (changesAt place entries).foldl UsageRecord.book (ledger.note place).record } := by
  induction entries generalizing ledger with
  | nil => rfl
  | cons entry entries ih =>
    rw [List.foldl_cons, ih, ledger.note_book entry answers, changesAt, changesAt,
      List.filter_cons]
    split
    next here =>
      rw [if_pos (decide_eq_true here), List.map_cons, List.foldl_cons]
    next elsewhere =>
      rw [if_neg (fun found => elsewhere (of_decide_eq_true found))]

end Ledger

namespace Machine

/-- The machine after changes of its records. -/
def bookAll (m : Machine) (entries : List Ledger.Entry) : Machine :=
  m.within fun s => { s with ledger := entries.foldl Ledger.book s.ledger }

/-- There is no cell of the open bus. -/
theorem ne_openBus_of_cell {m : Machine} {place : Place} {cell : Cell}
    (here : m.cell? place = some cell) : place ≠ .openBus := by
  rintro rfl
  cases here

/-- After entries the record of a cell has taken those for its place. -/
theorem cell?_bookAll {m : Machine} {place : Place} {cell : Cell}
    (here : m.cell? place = some cell) (entries : List Ledger.Entry) :
    (m.bookAll entries).cell? place =
      some
        { cell with
          note.record :=
            (Ledger.changesAt place entries).foldl UsageRecord.book cell.note.record } := by
  obtain ⟨value, kept, rfl⟩ := Option.map_eq_some_iff.mp here
  have note := m.ledger.note_foldl_book entries (ne_openBus_of_cell here)
  have same : (m.bookAll entries).byte? place = some value := kept
  rw [cell?, same]
  show some (Cell.mk _ _ ((entries.foldl Ledger.book m.ledger).note place)) = _
  rw [note]

/-- However kinds of use, banks and destinations are put on record all over a machine, the three
fields of each byte stay apart. Its kinds of use are those that it had and those of all marks made
of it, its bank is that of the last mark modulo 4096, its destination is the last one. A field
for which nothing was put on record is what it was, and so is all else about the byte. -/
theorem record_fields_stay_apart {m : Machine} (countable : m.Countable)
    {entries : List Ledger.Entry}
    (known : ∀ entry ∈ entries, ∀ destination, entry.booking = .moved destination →
      ∃ place cell, m.cell? place = some cell ∧ cell.identity = destination ∧
        destination ≠ .untracked)
    {place : Place} {cell : Cell} (here : m.cell? place = some cell) :
    let bookings := Ledger.changesAt place entries
    ∃ next, (m.bookAll entries).cell? place = some next ∧
      next.note.record.usage =
        (bookings.filterMap Booking.usage?).foldl Usage.union cell.note.record.usage ∧
      next.note.record.bank =
        ((bookings.filterMap Booking.bank?).getLast?.map (· % 0x1000)).getD
          cell.note.record.bank ∧
      next.note.record.destination =
        (bookings.filterMap Booking.destination?).getLast?.getD cell.note.record.destination ∧
      next.identity = cell.identity ∧ next.value = cell.value ∧
      next.note.origin = cell.note.origin := by
  intro bookings
  have fits : ∀ destination ∈ bookings.filterMap Booking.destination?, destination.Fits := by
    intro destination member
    obtain ⟨booking, listed, found⟩ := List.mem_filterMap.mp member
    obtain ⟨entry, filtered, rfl⟩ := List.mem_map.mp listed
    have moved : entry.booking = .moved destination := by
      generalize entry.booking = booking at found
      cases booking <;> cases found
      rfl
    obtain ⟨other, source, there, rfl, tracked⟩ :=
      known entry (List.mem_filter.mp filtered).1 destination moved
    have narrow := narrow_of_cell countable there
    obtain ⟨value, -, rfl⟩ := Option.map_eq_some_iff.mp there
    exact fits_of_narrow (Option.isSome_of_mem there) narrow tracked
  obtain ⟨used, banked, moved⟩ := cell.note.record.fields_foldl_book fits
  exact ⟨_, cell?_bookAll here entries, used, banked, moved, rfl, rfl, rfl⟩

/-- A byte of work RAM is marked, moved to the register at FF46, and marked once more under a bank
of which only the lowest bit is kept. In between a byte of ROM is marked. -/
theorem record_fields_stay_apart_of_work_ram :
    let m := Machine.assemble .empty #[]
    let entries : List Ledger.Entry :=
      [⟨.wram 5, .mark .data 0x1234⟩, ⟨.wram 5, .moved (Place.io 0x46).identity⟩,
        ⟨.rom 5 0, .mark .instruction 7⟩, ⟨.wram 5, .mark .wordLow 0x2001⟩]
    m.Countable ∧
      ∃ next, (m.bookAll entries).cell? (.wram 5) = some next ∧
        next.note.record.usage = ⟨0x12⟩ ∧ next.note.record.bank = 1 ∧
        next.note.record.destination = ⟨0x50000FF46⟩ := by
  intro m entries
  have countable : m.Countable := by
    constructor
    · show Cartridge.empty.rom.size ≤ _
      rw [Cartridge.size_rom_empty]
      decide
    · show (Array.replicate _ _).size ≤ _
      rw [Array.size_replicate]
      decide
  have device : m.cell? (.io 0x46) = some ⟨(Place.io 0x46).identity, 0, .blank⟩ := rfl
  have work : m.cell? (.wram 5) = some ⟨(Place.wram 5).identity, 0, .blank⟩ := by
    show ((Vector.replicate 0x8000 (0 : UInt8))[5]?).map _ = _
    simp
    rfl
  have known : ∀ entry ∈ entries, ∀ destination, entry.booking = .moved destination →
      ∃ place cell, m.cell? place = some cell ∧ cell.identity = destination ∧
        destination ≠ .untracked := by
    intro entry member destination found
    refine ⟨.io 0x46, _, device, ?_⟩
    simp only [entries, List.mem_cons, List.not_mem_nil, or_false] at member
    obtain rfl | rfl | rfl | rfl := member <;> cases found
    exact ⟨rfl, by decide⟩
  obtain ⟨next, there, used, banked, moved, -⟩ := record_fields_stay_apart countable known work
  exact ⟨countable, next, there, used.trans (by decide), banked.trans (by decide),
    moved.trans (by decide)⟩

end Machine

end Handheld
