import Handheld.Usage

/-!
# The ledger

What is known about the bytes of a machine beside their values is kept apart
from them, in a ledger with one note for each place. A note holds the origin of
the byte, the place at which its present value first appeared, and the usage
record of the place.

The ledger is read and written through places only, and nothing that a program
can observe is computed from it. A note that was never written is blank, so a
ledger needs no more room than the places that have been in use.
-/

set_option autoImplicit false

namespace Handheld

/-- What is on record about one place. -/
structure Note where
  /-- Where the value held here came from, if it was moved here unchanged. -/
  origin : Option Place := none
  /-- How the byte held here was used. -/
  record : UsageRecord := {}
  deriving DecidableEq, Inhabited

/-- The note of a place of which nothing is known yet. -/
def Note.blank : Note := {}

/-- The notes of one arena, by index; indices past the end have blank notes. -/
structure NoteTable where
  /-- The notes written so far. -/
  notes : Array Note := #[]
  deriving DecidableEq, Inhabited

namespace NoteTable

/-- The note at an index. -/
def note (table : NoteTable) (n : Nat) : Note :=
  table.notes.getD n .blank

/-- Makes room for an index by adding blank notes. -/
def padTo (notes : Array Note) (n : Nat) : Array Note :=
  if n < notes.size then notes else notes ++ Array.replicate (n + 1 - notes.size) .blank

/-- A padded table has an entry at the index it was padded for. -/
theorem lt_size_padTo (notes : Array Note) (n : Nat) : n < (padTo notes n).size := by
  unfold padTo
  split
  · assumption
  · simp only [Array.size_append, Array.size_replicate]
    omega

/-- Making room changes no note. -/
theorem getD_padTo (notes : Array Note) (n k : Nat) :
    (padTo notes n).getD k .blank = notes.getD k .blank := by
  unfold padTo
  split
  · rfl
  · simp only [Array.getD_eq_getD_getElem?, Array.getElem?_append]
    by_cases old : k < notes.size
    · rw [if_pos old]
    · rw [if_neg old, Array.getElem?_replicate, Array.getElem?_eq_none (Nat.le_of_not_lt old)]
      split <;> rfl

/-- Changes the note at an index. -/
@[inline] def modify (table : NoteTable) (n : Nat) (f : Note → Note) : NoteTable :=
  ⟨(padTo table.notes n).modify n f⟩

/-- Before anything is noted, every note is blank. -/
@[simp] theorem note_blank (n : Nat) : ({} : NoteTable).note n = .blank := by
  simp [note]

/-- A change reaches the note at its own index and no other. -/
theorem note_modify (table : NoteTable) (n k : Nat) (f : Note → Note) :
    (table.modify n f).note k = if k = n then f (table.note n) else table.note k := by
  unfold modify note
  rw [← getD_padTo table.notes n n, ← getD_padTo table.notes n k]
  have room := lt_size_padTo table.notes n
  generalize padTo table.notes n = notes at room ⊢
  by_cases same : k = n
  · subst same
    simp [room, Array.getElem_modify]
  · have : ¬ n = k := fun h => same h.symm
    simp [same, this, Array.getElem?_modify]

end NoteTable

/-- The notes that belong to a cartridge and leave the machine with it. -/
structure CartridgeNotes where
  /-- Notes on ROM bytes. -/
  rom : NoteTable := {}
  /-- Notes on RAM bytes. -/
  sram : NoteTable := {}
  /-- Notes on clock registers. -/
  rtc : NoteTable := {}
  deriving DecidableEq, Inhabited

/-- One note for each place. -/
structure Ledger where
  /-- Notes on the processor's registers. -/
  registers : NoteTable := {}
  /-- Notes on the boot image. -/
  boot : NoteTable := {}
  /-- Notes on the inserted cartridge. -/
  cartridge : CartridgeNotes := {}
  /-- Notes on video RAM. -/
  vram : NoteTable := {}
  /-- Notes on work RAM. -/
  wram : NoteTable := {}
  /-- Notes on the sprite table. -/
  oam : NoteTable := {}
  /-- Notes on device registers. -/
  io : NoteTable := {}
  /-- Notes on high RAM. -/
  hram : NoteTable := {}
  /-- The note on the interrupt-enable register. -/
  interruptEnable : Note := {}
  deriving DecidableEq, Inhabited

namespace Ledger

/-- The note of a place; nothing is ever noted about the open bus. -/
def note (ledger : Ledger) : Place → Note
  | .register r => ledger.registers.note r.index
  | .boot n => ledger.boot.note n
  | .rom offset _ => ledger.cartridge.rom.note offset
  | .sram n => ledger.cartridge.sram.note n
  | .rtc n => ledger.cartridge.rtc.note n
  | .vram n => ledger.vram.note n
  | .wram n => ledger.wram.note n
  | .oam n => ledger.oam.note n
  | .io n => ledger.io.note n
  | .hram n => ledger.hram.note n
  | .interruptEnable => ledger.interruptEnable
  | .openBus => .blank

/-- Changes the note of a place. -/
@[specialize] def modify (ledger : Ledger) (place : Place) (f : Note → Note) : Ledger :=
  match place with
  | .register r => { ledger with registers := ledger.registers.modify r.index f }
  | .boot n => { ledger with boot := ledger.boot.modify n f }
  | .rom offset _ =>
    let ⟨rom, sram, rtc⟩ := ledger.cartridge
    { ledger with cartridge := ⟨rom.modify offset f, sram, rtc⟩ }
  | .sram n =>
    let ⟨rom, sram, rtc⟩ := ledger.cartridge
    { ledger with cartridge := ⟨rom, sram.modify n f, rtc⟩ }
  | .rtc n =>
    let ⟨rom, sram, rtc⟩ := ledger.cartridge
    { ledger with cartridge := ⟨rom, sram, rtc.modify n f⟩ }
  | .vram n => { ledger with vram := ledger.vram.modify n f }
  | .wram n => { ledger with wram := ledger.wram.modify n f }
  | .oam n => { ledger with oam := ledger.oam.modify n f }
  | .io n => { ledger with io := ledger.io.modify n f }
  | .hram n => { ledger with hram := ledger.hram.modify n f }
  | .interruptEnable => { ledger with interruptEnable := f ledger.interruptEnable }
  | .openBus => ledger

/-- A change reaches the note of its own place and no other. -/
theorem note_modify (ledger : Ledger) (place other : Place) (f : Note → Note)
    (answers : place ≠ .openBus) :
    (ledger.modify place f).note other =
      if other.home = place.home then f (ledger.note place) else ledger.note other := by
  cases place with
  | register r =>
    cases other <;> simp [modify, note, Place.home, NoteTable.note_modify]
    rename_i r'
    cases r <;> cases r' <;> simp [Register.index]
  | openBus => exact absurd rfl answers
  | _ =>
    cases other <;> simp [modify, note, Place.home, NoteTable.note_modify]

/-- Adds kinds of use to the record of a place. -/
def mark (ledger : Ledger) (place : Place) (usage : Usage) (bank : Nat) : Ledger :=
  ledger.modify place fun note => { note with record := note.record.mark usage bank }

/-- Forgets where the value at a place came from. -/
def clearOrigin (ledger : Ledger) (place : Place) : Ledger :=
  ledger.modify place fun note => { note with origin := none }

/-- Notes where the value at a place came from. -/
def setOrigin (ledger : Ledger) (place origin : Place) : Ledger :=
  ledger.modify place fun note => { note with origin := some origin }

/-- Notes where the value at a place was last moved to. -/
def recordDestination (ledger : Ledger) (place : Place) (destination : Identity) : Ledger :=
  ledger.modify place fun note =>
    { note with record := note.record.recordDestination destination }

/-- The recorded origin of a place, where `present` tells which places hold a byte. -/
def origin? (ledger : Ledger) (present : Place → Bool) (place : Place) : Option Place :=
  if present place then (ledger.note place).origin else none

/-- The place to which a value taken from `source` is attributed: its recorded
origin, or `source` itself if it has none. -/
def root (ledger : Ledger) (present : Place → Bool) (source : Place) : Place :=
  (ledger.origin? present source).getD source

/-- Books a move of a value from `source` to `destination`. The destination's
origin becomes the root of the source, and the root learns the identity of the
destination if that has one. -/
def link (ledger : Ledger) (present : Place → Bool) (destination source : Place) : Ledger :=
  if present destination then
    let root := ledger.root present source
    let ledger := ledger.setOrigin destination root
    if destination.identity ≠ .untracked ∧ present root then
      ledger.recordDestination root destination.identity
    else
      ledger
  else
    ledger

/-- Forgets everything about places outside the cartridge and the boot image. -/
def powerCycle (ledger : Ledger) : Ledger :=
  { boot := ledger.boot, cartridge := ledger.cartridge }

end Ledger

end Handheld
