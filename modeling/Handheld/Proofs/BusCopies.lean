import Handheld.Proofs.Moves
import Handheld.Proofs.SpriteCopy

/-!
# Copies on the bus and moves of the processor

A byte is moved and booked in two places: by the processor, which sees its own registers, and on
the bus, where a block copy moves its bytes and there are no registers. Between places outside the
register file the two do the same (`copy_eq_move`), whatever the store sets off by itself, and
although a value that lies in memory may stem from a register: then the processor puts the
destination on the record of that register, and the bus finds nothing there.

So the bus may as well be told that the registers have any notes whatever: a copy carries them along
(`copy_withRegisters`). By induction, rows of moves and rows of copies leave the same bus, and a
block copy is such a row (`foldl_copyByte_block`), each byte read and written through the
address decoder when its turn comes.
-/

set_option autoImplicit false

namespace Handheld

/-! ## The notes on the registers -/

namespace Ledger

/-- The ledger with other notes on the registers. -/
def withRegisters (ledger : Ledger) (registers : NoteTable) : Ledger := { ledger with registers }

variable (ledger : Ledger) (registers : NoteTable)

/-- A ledger with its own register notes is as it was. -/
theorem withRegisters_eq {ledger : Ledger} {registers : NoteTable}
    (same : ledger.registers = registers) : ledger.withRegisters registers = ledger := by
  subst same
  rfl

variable {place : Place} (outside : ∀ r, place ≠ .register r)

include outside

/-- A note that is no register leaves the register notes alone. -/
theorem registers_modify (f : Note → Note) :
    (ledger.modify place f).registers = ledger.registers := by
  cases place with
  | register r => exact absurd rfl (outside r)
  | _ => rfl

/-- A note that is no register does not depend on the register notes. -/
theorem note_withRegisters : (ledger.withRegisters registers).note place = ledger.note place := by
  cases place with
  | register r => exact absurd rfl (outside r)
  | _ => rfl

/-- Changing a note that is no register does not touch the register notes. -/
theorem modify_withRegisters (f : Note → Note) :
    (ledger.withRegisters registers).modify place f =
      (ledger.modify place f).withRegisters registers := by
  cases place with
  | register r => exact absurd rfl (outside r)
  | _ => rfl

/-- Where a byte comes from does not depend on the register notes. -/
theorem root_withRegisters (present : Place → Bool) :
    (ledger.withRegisters registers).root present place = ledger.root present place := by
  unfold root origin?
  rw [ledger.note_withRegisters registers outside]

/-- Where no register is seen, none is reached: a value may stem from a register, but nothing is
booked there. -/
theorem link_withRegisters {present : Place → Bool} (blind : ∀ r, present (.register r) = false)
    {source : Place} (other : ∀ r, source ≠ .register r) :
    (ledger.withRegisters registers).link present place source =
      (ledger.link present place source).withRegisters registers := by
  unfold link
  rw [ledger.root_withRegisters registers other]
  by_cases here : present place = true
  · rw [if_pos here, if_pos here]
    dsimp only
    rw [setOrigin, ledger.modify_withRegisters registers outside]
    split
    next learns =>
      have known : ∀ r, ledger.root present source ≠ .register r := by
        intro r same
        rw [same, blind] at learns
        cases learns.2
      exact modify_withRegisters _ registers known _
    next => rfl
  · rw [if_neg here, if_neg here]

end Ledger

namespace Hardware

/-! ## What a store sets off -/

/-- What is booked one after the other does not touch the register notes, if nothing booked does.
-/
theorem foldl_withRegisters {α : Type} {book : Ledger → α → Ledger} (items : List α)
    (each : ∀ item ∈ items, ∀ ledger registers,
      book (Ledger.withRegisters ledger registers) item =
        (book ledger item).withRegisters registers)
    (ledger : Ledger) (registers : NoteTable) :
    items.foldl book (ledger.withRegisters registers) =
      (items.foldl book ledger).withRegisters registers := by
  induction items generalizing ledger with
  | nil => rfl
  | cons item items ih =>
    rw [List.foldl_cons, List.foldl_cons, each item List.mem_cons_self]
    exact ih (fun other mem => each other (List.mem_cons_of_mem _ mem)) _

/-- A block copy has nothing to do with the registers. -/
theorem outside_of_mem_moves {hw : Hardware} {place : Place} {value : UInt8} {move : Move}
    (member : move ∈ hw.moves place value) :
    (∀ r, move.destination ≠ .register r) ∧ ∀ r, move.source ≠ .register r := by
  unfold moves at member
  split at member
  · split at member
    · obtain ⟨i, -, rfl⟩ := List.mem_map.mp member
      exact ⟨by rintro r ⟨⟩, hw.resolve_ne_register _⟩
    · split at member
      · obtain ⟨i, -, rfl⟩ := List.mem_map.mp member
        exact ⟨hw.resolve_ne_register _, hw.resolve_ne_register _⟩
      · cases member
    · cases member
  · cases member

/-- Clearing origins of cartridge RAM does not touch the register notes. -/
theorem clearSram_withRegisters (size offset count : Nat) (ledger : Ledger)
    (registers : NoteTable) :
    clearSram size offset count (ledger.withRegisters registers) =
      (clearSram size offset count ledger).withRegisters registers := by
  induction count generalizing offset ledger with
  | zero => rfl
  | succ count ih =>
    unfold clearSram
    split
    · exact ih (offset + 1) (ledger.clearOrigin (.sram offset))
    · rfl

/-- The trail of a store does not touch the register notes. -/
theorem trail_withRegisters (hw : Hardware) (place : Place) (value : UInt8) (ledger : Ledger)
    (registers : NoteTable) :
    hw.trail place value (ledger.withRegisters registers) =
      (hw.trail place value ledger).withRegisters registers := by
  cases place with
  | io n =>
    apply foldl_withRegisters
    intro move member ledger registers
    obtain ⟨destination, source⟩ := outside_of_mem_moves member
    exact ledger.link_withRegisters registers destination (fun _ => rfl) source
  | rom offset address =>
    unfold trail
    dsimp only
    split
    · exact clearSram_withRegisters ..
    · rfl
  | _ => rfl

/-- The trail of a store leaves the register notes alone. -/
theorem trail_registers (hw : Hardware) (place : Place) (value : UInt8) (ledger : Ledger) :
    (hw.trail place value ledger).registers = ledger.registers := by
  have same : (hw.trail place value (ledger.withRegisters ledger.registers)).registers =
      ledger.registers := by
    rw [trail_withRegisters]
    rfl
  exact same

/-! ## One byte -/

/-- Moves a byte on the bus itself and books the move. The processor's registers
are out of reach here. -/
def copy (hw : Hardware) (ledger : Ledger) (move : Move) : Hardware × Ledger :=
  let value := hw.load move.source
  let ledger := hw.trail move.destination value ledger
  let hw := hw.store move.destination value
  (hw, ledger.link hw.present move.destination move.source)

/-- A copy on the bus carries the notes on the registers along. -/
theorem copy_withRegisters (hw : Hardware) (ledger : Ledger) (registers : NoteTable) {move : Move}
    (destination : ∀ r, move.destination ≠ .register r) (source : ∀ r, move.source ≠ .register r) :
    hw.copy (ledger.withRegisters registers) move =
      ((hw.copy ledger move).1, (hw.copy ledger move).2.withRegisters registers) := by
  unfold copy
  dsimp only
  rw [trail_withRegisters, Ledger.link_withRegisters _ registers destination (fun _ => rfl) source]

end Hardware

namespace Ledger

/-- What is booked by one who sees the registers and by one who does not differs in the notes on
registers only. -/
theorem link_of_bus (ledger : Ledger) (hw : Hardware) {destination source : Place}
    (outside : ∀ r, destination ≠ .register r) (other : ∀ r, source ≠ .register r) :
    ledger.link hw.present destination source =
      (ledger.link (System.present hw) destination source).withRegisters ledger.registers := by
  have root : ledger.root (System.present hw) source = ledger.root hw.present source := by
    unfold Ledger.root origin?
    rw [System.present_bus hw other]
  have linked : (ledger.setOrigin destination (ledger.root hw.present source)).registers =
      ledger.registers := ledger.registers_modify outside _
  unfold link
  rw [root, System.present_bus hw outside]
  dsimp only
  split
  · by_cases known : ∃ r, ledger.root hw.present source = .register r
    · obtain ⟨r, found⟩ := known
      have unseen : hw.present (.register r) = false := rfl
      rw [found] at linked ⊢
      rw [if_neg (by rw [unseen]; simp)]
      split
      · exact (withRegisters_eq linked).symm
      · exact (withRegisters_eq linked).symm
    · have away : ∀ r, ledger.root hw.present source ≠ .register r := fun r same => known ⟨r, same⟩
      rw [System.present_bus hw away]
      split
      · exact (withRegisters_eq ((registers_modify _ away _).trans linked)).symm
      · exact (withRegisters_eq linked).symm
  · exact (withRegisters_eq rfl).symm

end Ledger

namespace System

/-- Between places outside the register file the bus copies as the processor moves. The notes on
registers it leaves alone. -/
theorem copy_eq_move (s : System Hardware) {destination source : Place}
    (outside : ∀ r, destination ≠ .register r) (other : ∀ r, source ≠ .register r) :
    s.bus.copy s.ledger { destination, source } =
      ((s.move destination source).bus,
        (s.move destination source).ledger.withRegisters s.ledger.registers) := by
  have value : s.load source = s.bus.load source := s.load_place other
  have stored := s.store_place outside (s.load source)
  have bus :
      (s.store destination (s.load source)).bus = s.bus.store destination (s.load source) := by
    rw [stored]
    rfl
  show _ = ((s.store destination (s.load source)).bus,
    Ledger.withRegisters ((s.store destination (s.load source)).ledger.link
      (present (s.store destination (s.load source)).bus) destination source) s.ledger.registers)
  rw [store_ledger_eq, bus, value]
  unfold Hardware.copy
  dsimp only
  rw [Ledger.link_of_bus _ _ outside other, Hardware.trail_registers]

/-- What a move between places outside the register file leaves of the processor: all of it, and
all notes on registers but for the usage record of one that is the root. -/
theorem note_register_move (s : System Hardware) {destination : Place}
    (outside : ∀ r, destination ≠ .register r) (source : Place) (r : Register) :
    let stored := s.store destination (s.load source)
    (s.move destination source).ledger.note (.register r) =
      if stored.rootOf source = .register r ∧ destination.identity ≠ .untracked ∧
          present stored.bus destination = true then
        { s.ledger.note (.register r) with
          record := (s.ledger.note (.register r)).record.recordDestination destination.identity }
      else s.ledger.note (.register r) := by
  intro stored
  have trailed : stored.ledger.note (.register r) = s.ledger.note (.register r) := by
    have table : stored.ledger.registers = s.ledger.registers := by
      rw [store_ledger_eq, Hardware.trail_registers]
    exact congrArg (fun table => NoteTable.note table r.index) table
  have apart : (Place.register r).home ≠ destination.home := by
    intro same
    cases destination with
    | register q => exact outside q rfl
    | _ => cases same
  show (stored.ledger.link (present stored.bus) destination source).note (.register r) = _
  -- A register is not the destination, so it takes part in the move as its root or not at all.
  by_cases here : present stored.bus destination = true
  · have home : (Place.register r).home = (stored.rootOf source).home ↔
        stored.rootOf source = .register r := by
      rw [eq_comm]
      exact Place.home_eq_iff rfl _
    have root : stored.ledger.root (present stored.bus) source = stored.rootOf source := rfl
    have seen : stored.rootOf source = .register r →
        present stored.bus (stored.rootOf source) = true := by
      intro same
      rw [same]
      rfl
    rw [Ledger.note_link _ here rfl, if_neg apart, root, trailed]
    by_cases learns : stored.rootOf source = .register r ∧ destination.identity ≠ .untracked
    · rw [if_pos ⟨home.mpr learns.1, learns.2, seen learns.1⟩, if_pos ⟨learns.1, learns.2, here⟩]
    · rw [if_neg fun all => learns ⟨home.mp all.1, all.2.1⟩,
        if_neg fun all => learns ⟨all.1, all.2.1⟩]
  · have unbooked : stored.ledger.link (present stored.bus) destination source = stored.ledger := by
      unfold Ledger.link
      rw [if_neg here]
    rw [unbooked, trailed, if_neg fun all => here all.2.2]

/-- A move to a place outside the processor leaves the processor alone. -/
theorem move_cpu_of_outside (s : System Hardware) {destination source : Place}
    (outside : ∀ r, destination ≠ .register r) : (s.move destination source).cpu = s.cpu := by
  rw [move_cpu, s.store_place outside]

end System

/-! ## Rows -/

/-- One byte of a block: the address to which it is copied, and the one from which. -/
structure CopiedByte where
  target : UInt16
  source : UInt16

namespace Hardware

/-- The bytes that a store to a device register copies, in order. -/
def bytesCopied (hw : Hardware) (n : Nat) (value : UInt8) : List CopiedByte :=
  match DeviceRegister.ofOffset? n with
  | some .dma =>
    (List.range 0xA0).map fun i => ⟨0xFE00 + UInt16.ofNat i, word value 0 + UInt16.ofNat i⟩
  | some .hdma5 =>
    if hw.color then
      (List.range (videoLength value)).map fun i =>
        ⟨0x8000 ||| ((hw.videoDestination + UInt16.ofNat i) &&& 0x1FFF),
          hw.videoSource + UInt16.ofNat i⟩
    else
      []
  | _ => []

/-- The move of a byte between the places for which its addresses stand. -/
def moveOf (hw : Hardware) (byte : CopiedByte) : Move :=
  { destination := hw.resolve byte.target, source := hw.resolve byte.source }

/-- Which move copies a byte depends on what addresses stand for. -/
theorem moveOf_congr {hw next : Hardware} (same : next.resolve = hw.resolve) :
    next.moveOf = hw.moveOf := by
  funext byte
  unfold moveOf
  rw [same]

/-- Copies a byte on the bus, between the places for which its addresses stand by now. -/
def copyByte (state : Hardware × Ledger) (byte : CopiedByte) : Hardware × Ledger :=
  state.1.copy state.2 (state.1.moveOf byte)

/-- Copying a byte does not touch the register notes. -/
theorem copyByte_withRegisters (state : Hardware × Ledger) (registers : NoteTable)
    (byte : CopiedByte) :
    copyByte (state.1, state.2.withRegisters registers) byte =
      ((copyByte state byte).1, (copyByte state byte).2.withRegisters registers) :=
  state.1.copy_withRegisters state.2 registers (state.1.resolve_ne_register _)
    (state.1.resolve_ne_register _)

/-- Copying bytes one after the other does not touch the register notes. -/
theorem foldl_copyByte_withRegisters (bytes : List CopiedByte) (hw : Hardware) (ledger : Ledger)
    (registers : NoteTable) :
    let last := bytes.foldl copyByte (hw, ledger)
    bytes.foldl copyByte (hw, ledger.withRegisters registers) =
      (last.1, last.2.withRegisters registers) := by
  let carry (state : Hardware × Ledger) := (state.1, state.2.withRegisters registers)
  have carried : bytes.foldl copyByte (carry (hw, ledger)) =
      carry (bytes.foldl copyByte (hw, ledger)) :=
    List.foldl_hom carry fun state byte => copyByte_withRegisters state registers byte
  exact carried

/-! ### Blocks -/

/-- A store to memory takes no byte away and adds none. -/
theorem present_storeMemory (hw : Hardware) (place : Place) (value : UInt8) :
    (hw.storeMemory place value).present = hw.present := by
  funext q
  rw [Bool.eq_iff_iff]
  cases place <;> cases q <;> simp [present, byte?, storeMemory]

/-- A store to memory sets off nothing, and all places that held a byte hold one. -/
theorem copy_memory (hw : Hardware) (ledger : Ledger) {move : Move}
    (memory : move.destination.isMemory = true) :
    hw.copy ledger move =
      (hw.carryOut move, ledger.link hw.present move.destination move.source) := by
  have quiet : hw.trail move.destination (hw.load move.source) ledger = ledger := by
    obtain ⟨destination, source⟩ := move
    cases destination <;> first | rfl | contradiction
  unfold copy
  dsimp only
  rw [quiet, hw.store_memory memory, present_storeMemory]
  rfl

/-- Neither the addresses nor what is there changes while a block is copied into memory, so it does
not matter when an address is looked up. -/
theorem foldl_copyByte_memory (bytes : List CopiedByte) (hw : Hardware) (ledger : Ledger)
    (memory : ∀ byte ∈ bytes, (hw.resolve byte.target).isMemory = true) :
    bytes.foldl copyByte (hw, ledger) =
      ((bytes.map hw.moveOf).foldl carryOut hw,
        (bytes.map hw.moveOf).foldl
          (fun ledger move => ledger.link hw.present move.destination move.source) ledger) := by
  induction bytes generalizing hw ledger with
  | nil => rfl
  | cons byte bytes ih =>
    have target : (hw.moveOf byte).destination.isMemory = true := memory byte List.mem_cons_self
    have first := hw.copy_memory ledger target
    have resolve : (hw.carryOut (hw.moveOf byte)).resolve = hw.resolve :=
      funext (hw.resolve_storeMemory _ _)
    have present : (hw.carryOut (hw.moveOf byte)).present = hw.present :=
      hw.present_storeMemory _ _
    rw [List.foldl_cons, copyByte, first, ih]
    · rw [moveOf_congr resolve, present]
      rfl
    · intro other mem
      rw [resolve]
      exact memory other (List.mem_cons_of_mem _ mem)

/-- The moves of the bus are those of the bytes copied. -/
theorem moves_eq_map (hw : Hardware) (n : Nat) (value : UInt8) :
    hw.moves (.io n) value = (hw.bytesCopied n value).map hw.moveOf := by
  unfold moves bytesCopied
  dsimp only
  cases DeviceRegister.ofOffset? n with
  | none => rfl
  | some register =>
    cases register with
    | dma =>
      show hw.spriteMoves value = List.map _ (List.map _ _)
      unfold spriteMoves
      rw [List.map_map]
      apply List.map_congr_left
      intro i inside
      show _ = hw.moveOf _
      rw [moveOf, hw.resolve_spriteAddress (List.mem_range.mp inside)]
    | hdma5 =>
      dsimp only
      split
      · unfold videoMoves
        rw [List.map_map]
        rfl
      · rfl
    | _ => rfl

/-- Copied bytes arrive in memory. -/
theorem isMemory_of_mem_bytesCopied {hw : Hardware} {n : Nat} {value : UInt8} {byte : CopiedByte}
    (member : byte ∈ hw.bytesCopied n value) : (hw.resolve byte.target).isMemory = true := by
  unfold bytesCopied at member
  split at member
  · obtain ⟨i, inside, rfl⟩ := List.mem_map.mp member
    rw [hw.resolve_spriteAddress (List.mem_range.mp inside)]
    rfl
  · split at member
    · obtain ⟨i, -, rfl⟩ := List.mem_map.mp member
      rw [hw.resolve_vram (videoAddress_window _)]
      rfl
    · cases member
  · cases member

/-- The block that a store to a device register copies is a row of copies, each byte read and
written through the address decoder when its turn comes. -/
theorem foldl_copyByte_block (hw : Hardware) (ledger : Ledger) (n : Nat) (value : UInt8) :
    (hw.bytesCopied n value).foldl copyByte (hw, ledger) =
      ((hw.moves (.io n) value).foldl carryOut hw, hw.trail (.io n) value ledger) := by
  rw [foldl_copyByte_memory _ hw ledger fun _ => isMemory_of_mem_bytesCopied, ← moves_eq_map]
  rfl

end Hardware

namespace System

/-- Lets the processor move a byte between the places for which its addresses stand. -/
def moveByte (s : System Hardware) (byte : CopiedByte) : System Hardware :=
  s.move (s.resolve byte.target) (s.resolve byte.source)

/-- By induction on the row: the notes on registers, which the processor may have changed with the
bytes before, mean nothing to the bus. -/
theorem foldl_copyByte_eq (bytes : List CopiedByte) (s : System Hardware) :
    let moved := bytes.foldl moveByte s
    bytes.foldl Hardware.copyByte (s.bus, s.ledger) =
      (moved.bus, moved.ledger.withRegisters s.ledger.registers) := by
  induction bytes generalizing s with
  | nil => rfl
  | cons byte bytes ih =>
    have first : Hardware.copyByte (s.bus, s.ledger) byte =
        ((s.moveByte byte).bus, (s.moveByte byte).ledger.withRegisters s.ledger.registers) :=
      s.copy_eq_move (s.bus.resolve_ne_register _) (s.bus.resolve_ne_register _)
    show bytes.foldl Hardware.copyByte (Hardware.copyByte (s.bus, s.ledger) byte) = _
    rw [first, Hardware.foldl_copyByte_withRegisters, ih]
    rfl

/-- The processor is left alone by bytes that are moved outside it. -/
theorem foldl_moveByte_cpu (bytes : List CopiedByte) (s : System Hardware) :
    (bytes.foldl moveByte s).cpu = s.cpu := by
  induction bytes generalizing s with
  | nil => rfl
  | cons byte bytes ih =>
    rw [List.foldl_cons, ih]
    exact s.move_cpu_of_outside (s.bus.resolve_ne_register _)

/-- A block that a store to a device register copies is a row of moves that the processor could
have made. -/
theorem block_eq_moves (s : System Hardware) (n : Nat) (value : UInt8) :
    let moved := (s.bus.bytesCopied n value).foldl moveByte s
    ((s.bus.moves (.io n) value).foldl Hardware.carryOut s.bus,
        s.bus.trail (.io n) value s.ledger) =
      (moved.bus, moved.ledger.withRegisters s.ledger.registers) := by
  intro moved
  rw [← Hardware.foldl_copyByte_block]
  exact foldl_copyByte_eq _ s

end System

namespace Machine

/-- Between places outside the register file a copy on the bus and a move of the processor leave the
same bus and the same on record about every byte of it, whatever the store sets off. The processor
is what it was. Of what is on record about its registers no origin has changed, and of the usage
records at most that of the register from which the value stems. So a block that a store to a device
register copies is what the processor would have made of it, byte by byte. -/
theorem bus_copies_as_processor_moves (m : Machine) {destination source : Place}
    (outside : ∀ r, destination ≠ .register r) (other : ∀ r, source ≠ .register r) :
    let after := (m.perform (.move destination source)).1
    let root := (m.store destination (m.load source)).rootOf source
    m.bus.copy m.ledger { destination, source } =
        (after.bus, after.ledger.withRegisters m.ledger.registers) ∧
      after.cpu = m.cpu ∧
      (∀ r, (after.ledger.note (.register r)).origin = (m.ledger.note (.register r)).origin ∧
        (root ≠ .register r →
          after.ledger.note (.register r) = m.ledger.note (.register r))) ∧
      ∀ n value,
        let moved := (m.bus.bytesCopied n value).foldl System.moveByte m.toSystem
        ((m.bus.moves (.io n) value).foldl Hardware.carryOut m.bus,
            m.bus.trail (.io n) value m.ledger) =
          (moved.bus, moved.ledger.withRegisters m.ledger.registers) ∧ moved.cpu = m.cpu := by
  intro after root
  have noted := m.note_register_move outside source
  refine ⟨m.copy_eq_move outside other, m.move_cpu_of_outside outside, ?_, ?_⟩
  · intro r
    have same : after.ledger.note (.register r) =
      (m.move destination source).ledger.note (.register r) := rfl
    rw [same, noted]
    constructor
    · split <;> rfl
    · intro apart
      exact if_neg fun all => apart all.1
  · intro n value
    exact ⟨m.block_eq_moves n value, System.foldl_moveByte_cpu _ _⟩

/-- A byte of work RAM that came from a register is moved to the register at FF46. This copies a
page into the sprite table, and the processor books the move under the register. -/
theorem bus_copies_as_processor_moves_of_page :
    let m := ((Machine.assemble .empty #[]).perform (.move (.wram 5) (.register .a))).1
    let after := (m.perform (.move (.io 0x46) (.wram 5))).1
    m.bus.copy m.ledger { destination := .io 0x46, source := .wram 5 } =
        (after.bus, after.ledger.withRegisters m.ledger.registers) ∧
      after.cpu = m.cpu := by
  intro m after
  have outside : ∀ r, Place.io 0x46 ≠ .register r := by rintro r ⟨⟩
  have other : ∀ r, Place.wram 5 ≠ .register r := by rintro r ⟨⟩
  obtain ⟨copied, cpu, -⟩ := m.bus_copies_as_processor_moves outside other
  exact ⟨copied, cpu⟩

end Machine

end Handheld
