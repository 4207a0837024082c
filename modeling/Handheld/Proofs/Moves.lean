import Handheld.Proofs.Deeds
import Handheld.Proofs.PlainMemory
import Handheld.Proofs.RecordFields

/-!
# What a move leaves behind

A move changes up to three bytes of what is on record: the destination takes the value and an
origin, and the place from which the value stems, the root, learns where it went. The root is looked
up after the value has been stored, and the three may be one byte, or two, or lie in different
memories, in the register file, or nowhere any more.

None of this matters. Where a destination does nothing but keep bytes, a store to it changes no
other byte and books nothing, so the root is what it was before. And origins and usage records are
different parts of a note: one equation says what is noted about any byte afterwards (`note_link`),
in which the conditions for the two parts have nothing to do with each other.
-/

set_option autoImplicit false

namespace Handheld

/-! ## What is noted -/

namespace Ledger

variable (ledger : Ledger) {present : Place → Bool}

/-- Setting an origin changes no usage record. -/
theorem record_setOrigin (place origin q : Place) :
    ((ledger.setOrigin place origin).note q).record = (ledger.note q).record := by
  unfold setOrigin
  obtain same | ⟨-, changed⟩ :=
    ledger.note_modify_cases place q fun note => { note with origin := some origin }
  · rw [same]
  · rw [changed]

/-- A move that is booked changes the usage record of the root, if it changes any. -/
theorem record_link {destination : Place} (here : present destination = true)
    (nowhere : present .openBus = false) (source q : Place) :
    ((ledger.link present destination source).note q).record =
      if q.home = (ledger.root present source).home ∧ destination.identity ≠ .untracked ∧
          present (ledger.root present source) = true then
        (ledger.note q).record.recordDestination destination.identity
      else (ledger.note q).record := by
  simp only [link, here, if_true]
  by_cases learns : destination.identity ≠ .untracked ∧
      present (ledger.root present source) = true
  · have answers : ledger.root present source ≠ .openBus := by
      intro lost
      rw [lost, nowhere] at learns
      cases learns.2
    rw [if_pos learns, recordDestination, note_modify _ _ _ _ answers]
    by_cases same : q.home = (ledger.root present source).home
    · rw [if_pos same, if_pos ⟨same, learns⟩, record_setOrigin, ledger.note_of_home same]
    · rw [if_neg same, if_neg fun all => same all.1, record_setOrigin]
  · rw [if_neg learns, if_neg fun all => learns all.2, record_setOrigin]

/-- A move is on record in two notes, or in one: the destination has the root for its origin, and
the root has the destination on its usage record. -/
theorem note_link {destination : Place} (here : present destination = true)
    (nowhere : present .openBus = false) (source q : Place) :
    (ledger.link present destination source).note q =
      { origin :=
          if q.home = destination.home then some (ledger.root present source)
          else (ledger.note q).origin
        record :=
          if q.home = (ledger.root present source).home ∧ destination.identity ≠ .untracked ∧
              present (ledger.root present source) = true then
            (ledger.note q).record.recordDestination destination.identity
          else (ledger.note q).record } := by
  have answers : destination ≠ .openBus := by
    rintro rfl
    rw [nowhere] at here
    cases here
  rw [← ledger.origin_link source q here answers, ← ledger.record_link here nowhere]

end Ledger

/-! ## What is stored -/

/-- Whether a place does nothing but keep bytes, if it keeps any: the registers of the processor,
the memories, cartridge RAM and the clock registers of a cartridge. -/
def Place.takesBytes : Place → Bool
  | .register _ | .sram _ | .rtc _ => true
  | place => place.isMemory

namespace Place

/-- Only ROM shows one byte at several places. -/
theorem home_eq_iff {p : Place} (takes : p.takesBytes = true) (q : Place) :
    q.home = p.home ↔ q = p := by
  cases p with
  | rom => cases takes
  | _ => cases q <;> simp [home]

end Place

namespace System

/-- What a place keeps of a byte that is stored there. The flags have the upper four bits only,
and the RAM of the second controller the lower four. -/
def keptOf (s : System Hardware) (place : Place) (value : UInt8) : UInt8 :=
  match place with
  | .register .f => value &&& 0xF0
  | .sram _ => value ||| s.bus.cartridge.controller.sramOnes
  | _ => value

/-- A place is there exactly if it holds a byte. -/
theorem present_eq_isSome (s : System Hardware) (place : Place) :
    present s.bus place = (s.byte? place).isSome := by
  cases place <;> rfl

/-- A place is there exactly if its home is. -/
theorem present_home (hw : Hardware) (place : Place) :
    present hw place.home = present hw place := by
  cases place <;> rfl

variable {s : System Hardware} {destination : Place}

/-- A byte stored where bytes are kept changes no other byte. -/
theorem byte?_store (takes : destination.takesBytes = true)
    (here : (s.byte? destination).isSome = true) (value : UInt8) (q : Place) :
    (s.store destination value).byte? q =
      if q = destination then some (s.keptOf destination value) else s.byte? q := by
  by_cases inside : ∃ r, destination = .register r
  · obtain ⟨r, rfl⟩ := inside
    cases q with
    | register q =>
      show some ((s.cpu.registers.set r value).get q) = _
      rw [Registers.get_set]
      simp only [Place.register.injEq]
      cases r <;> split <;> rfl
    | _ => rfl
  · have outside : ∀ r, destination ≠ .register r := fun r same => inside ⟨r, same⟩
    have kept : (s.bus.byte? destination).isSome = true := by
      cases destination with
      | register r => exact absurd rfl (outside r)
      | _ => exact here
    have stored : (s.bus.store destination value).byte? q =
        if q = destination then some (s.keptOf destination value) else s.bus.byte? q := by
      cases destination with
      | register r => exact absurd rfl (outside r)
      | sram n =>
        have bound : n < s.bus.cartridge.sram.size := by
          have inside : (s.bus.cartridge.sram[n]?).isSome = true := kept
          simpa using inside
        exact s.bus.byte?_store_sram bound value q
      | rtc n =>
        cases q with
        | rtc k =>
          refine (Hardware.getElem?_replaced s.bus.cartridge.clock kept value k).trans ?_
          simp only [Place.rtc.injEq]
          rfl
        | _ => rfl
      | vram | wram | oam | hram | interruptEnable =>
        rw [s.bus.store_memory rfl]
        exact s.bus.byte?_storeMemory rfl kept value q
      | _ => cases takes
    -- Outside the register file the store is that of the bus.
    rw [s.store_place outside]
    cases q with
    | register q =>
      rw [if_neg (outside q).symm]
      rfl
    | _ => exact stored

/-- Such a store sets off nothing and tells nothing. -/
theorem store_quiet (takes : destination.takesBytes = true) (value : UInt8) :
    (s.store destination value).ledger = s.ledger ∧
      (s.store destination value).journal = s.journal := by
  cases destination <;> first | exact ⟨rfl, rfl⟩ | cases takes

/-- A store to a place that takes bytes leaves all places there that are. -/
theorem present_store (takes : destination.takesBytes = true)
    (here : (s.byte? destination).isSome = true) (value : UInt8) (q : Place) :
    present (s.store destination value).bus q = present s.bus q := by
  rw [present_eq_isSome, present_eq_isSome, byte?_store takes here]
  split
  next same =>
    rw [same, here]
    rfl
  next => rfl

/-- The place to which a value that is taken from a place is attributed. -/
def rootOf (s : System Hardware) (source : Place) : Place := s.ledger.root (present s.bus) source

/-- A move is a store and what is booked, and booking changes no byte. -/
theorem byte?_move (takes : destination.takesBytes = true)
    (here : (s.byte? destination).isSome = true) (source q : Place) :
    (s.move destination source).byte? q =
      if q = destination then some (s.keptOf destination (s.load source)) else s.byte? q := by
  rw [← byte?_store takes here]
  cases q <;> rfl

/-- The root is looked up after the store, and is what it was before. -/
theorem move_ledger (takes : destination.takesBytes = true)
    (here : (s.byte? destination).isSome = true) (source : Place) :
    (s.move destination source).ledger = s.ledger.link (present s.bus) destination source := by
  have same : present (s.store destination (s.load source)).bus = present s.bus :=
    funext (present_store takes here _)
  show (s.store destination (s.load source)).ledger.link
    (present (s.store destination (s.load source)).bus) destination source = _
  rw [same, (store_quiet takes _).1]

/-- What is noted about a byte after a move. The byte is booked under the root if it is there that
the root is found, so the root holds a byte as well. -/
theorem note_move (takes : destination.takesBytes = true)
    (here : (s.byte? destination).isSome = true) (source : Place) {q : Place}
    (held : (s.byte? q).isSome = true) :
    (s.move destination source).ledger.note q =
      { origin :=
          if q = destination then some (s.rootOf source) else (s.ledger.note q).origin
        record :=
          if q.home = (s.rootOf source).home ∧ destination.identity ≠ .untracked then
            (s.ledger.note q).record.recordDestination destination.identity
          else (s.ledger.note q).record } := by
  have there : present s.bus destination = true := by
    rw [present_eq_isSome, here]
  have found : q.home = (s.rootOf source).home → present s.bus (s.rootOf source) = true := by
    intro home
    rw [← present_home, ← home, present_home, present_eq_isSome, held]
  have learns : (q.home = (s.rootOf source).home ∧ destination.identity ≠ .untracked ∧
      present s.bus (s.rootOf source) = true) ↔
        q.home = (s.rootOf source).home ∧ destination.identity ≠ .untracked :=
    ⟨fun all => ⟨all.1, all.2.1⟩, fun both => ⟨both.1, both.2, found both.1⟩⟩
  have rooted : s.ledger.root (present s.bus) source = s.rootOf source := rfl
  rw [move_ledger takes here, s.ledger.note_link there rfl]
  simp only [rooted, learns, Place.home_eq_iff takes]

end System

namespace Machine

variable {m : Machine} {destination : Place}

/-- The recorded origin of a cell, or else the cell itself. -/
theorem rootOf_eq (m : Machine) (source : Place) :
    m.rootOf source = ((m.cell? source).bind fun cell => cell.note.origin).getD source := by
  have there := m.cell?_isSome source
  unfold System.rootOf Ledger.root Ledger.origin?
  rw [← there]
  cases found : m.cell? source with
  | none => rfl
  | some cell =>
    rw [← cell?_eq found]
    rfl

/-- Every cell after a move, told by the cell that was there before. -/
theorem cell?_move (takes : destination.takesBytes = true)
    (here : (m.cell? destination).isSome = true) (source q : Place) :
    (m.perform (.move destination source)).1.cell? q = (m.cell? q).map fun cell =>
      { identity := cell.identity
        value := if q = destination then m.keptOf destination (m.load source) else cell.value
        note :=
          { origin := if q = destination then some (m.rootOf source) else cell.note.origin
            record :=
              if q.home = (m.rootOf source).home ∧ destination.identity ≠ .untracked then
                cell.note.record.recordDestination destination.identity
              else cell.note.record } } := by
  have kept : (m.byte? destination).isSome = true := by
    rwa [cell?, Option.isSome_map] at here
  show ((m.move destination source).byte? q).map
    (fun value => Cell.mk _ value ((m.move destination source).ledger.note q)) = _
  rw [System.byte?_move takes kept]
  unfold cell?
  cases byte : m.byte? q with
  | none =>
    have other : q ≠ destination := by
      rintro rfl
      rw [byte] at kept
      cases kept
    rw [if_neg other]
    rfl
  | some value =>
    have held : (m.byte? q).isSome = true := by
      rw [byte]
      rfl
    rw [System.note_move takes kept source held]
    split <;> rfl

/-- Where a destination does nothing but keep bytes, a move gives it the value of the source, as far
as the flags or half-bytes have room for it, and for its origin the root: the origin that the source
had before, or else the source itself. If the destination has an identity, this replaces the
destination on the usage record of the root, if there is a byte, and leaves the kinds of use and the
bank there alone. No other value, no other origin and no other record changes, and neither does the
processor apart from its registers. Destination, source and root may be any of them the same, and
source and root need not be there. An index into cartridge RAM has forty bits at most. -/
theorem move_links_root (takes : destination.takesBytes = true)
    (here : (m.cell? destination).isSome = true) (narrow : destination.Narrow) (source : Place) :
    let root := ((m.cell? source).bind fun cell => cell.note.origin).getD source
    let after := (m.perform (.move destination source)).1
    (∀ place, (after.cell? place).isSome = (m.cell? place).isSome) ∧
    (∀ place cell next, m.cell? place = some cell → after.cell? place = some next →
      next.identity = cell.identity ∧
      next.value = (if place = destination then m.keptOf destination (m.load source)
        else cell.value) ∧
      next.note.origin = (if place = destination then some root else cell.note.origin) ∧
      (place.home = root.home ∧ destination.identity ≠ .untracked →
        next.note.record.destination = destination.identity ∧
          next.note.record.usage = cell.note.record.usage ∧
          next.note.record.bank = cell.note.record.bank) ∧
      (¬ (place.home = root.home ∧ destination.identity ≠ .untracked) →
        next.note.record = cell.note.record)) ∧
    after.cpu.control = m.cpu.control ∧ after.journal = m.journal ∧ after.quit = m.quit ∧
      after.frameDone = m.frameDone := by
  intro root after
  have rooted : m.rootOf source = root := m.rootOf_eq source
  refine ⟨?_, ?_, ?_, ?_, rfl, rfl⟩
  · intro place
    rw [cell?_move takes here, Option.isSome_map]
  · intro place cell next before now
    rw [cell?_move takes here, before] at now
    obtain rfl := Option.some.inj now
    rw [rooted]
    refine ⟨rfl, rfl, rfl, ?_, ?_⟩
    · intro learns
      have fits := fits_of_narrow here narrow learns.2
      dsimp only
      rw [if_pos learns]
      exact ⟨UsageRecord.destination_recordDestination fits _,
        UsageRecord.usage_recordDestination_of_fits fits _,
        UsageRecord.bank_recordDestination fits _⟩
    · exact fun other => if_neg other
  · exact m.store_control destination (m.load source)
  · exact (System.store_quiet takes (m.load source)).2

/-- A byte of the second controller's RAM is moved to itself: destination, source and root are one
byte. -/
theorem move_links_root_of_itself :
    let m := Machine.assemble (.assemble {} #[] (.ofKind .mbc2)) #[]
    let after := (m.perform (.move (.sram 5) (.sram 5))).1
    ∃ next, after.cell? (.sram 5) = some next ∧ next.note.origin = some (.sram 5) ∧
      next.note.record.destination = ⟨0x200000005⟩ := by
  intro m after
  have before : m.cell? (.sram 5) = some ⟨(Place.sram 5).identity, 0xF0, .blank⟩ := by
    have sram : m.bus.cartridge.sram =
        Array.replicate (max (Header.sramBytes {}) Mbc2.sramSize) 0xF0 := rfl
    have shown : ∀ s : System Hardware, s.byte? (.sram 5) = s.bus.cartridge.sram[5]? :=
      fun _ => rfl
    have byte : m.byte? (.sram 5) = some 0xF0 := by
      rw [shown, sram, Array.getElem?_replicate]
      exact if_pos (by decide)
    rw [cell?, byte]
    rfl
  have here : (m.cell? (.sram 5)).isSome = true := Option.isSome_of_mem before
  have takes : (Place.sram 5).takesBytes = true := rfl
  have narrow : (Place.sram 5).Narrow := show 5 < 2 ^ 40 by decide
  obtain ⟨same, cells, -⟩ := move_links_root takes here narrow (.sram 5)
  obtain ⟨next, now⟩ := Option.isSome_iff_exists.mp ((same (.sram 5)).trans here)
  obtain ⟨-, -, origin, learns, -⟩ := cells _ _ next before now
  rw [before] at origin learns
  exact ⟨next, now, origin, (learns ⟨rfl, by decide⟩).1.trans (by decide)⟩

end Machine

end Handheld
