import Handheld.Proofs.CartridgeRam
import Handheld.Proofs.Deeds

/-!
# The address decoder

Every address is decoded, whatever the cartridge, its controller, the boot image and the bank
registers are. Behind the bus lie regions, each with windows in which it answers
(`Region.windows`). An address is decoded to a byte that there is in a region answering there, or
to nothing, where nothing answers (`Unanswered`). There is one exception: the first 0x100
addresses belong to a boot image that is mapped even if the image is shorter.

A controller may compute offsets that lie past the end of the memory. They are reduced modulo
its size, and the size of a ROM is a number of banks, so the offset within a bank is not lost.
-/

set_option autoImplicit false

namespace Handheld

/-- The memories behind the bus. -/
inductive Region where
  | boot | rom | vram | sram | rtc | wram | oam | io | hram | interruptEnable
  deriving DecidableEq

/-- Where a region answers, by the first and the last address of each window. Work RAM answers
at its echo, too. -/
def Region.windows : Region → List (UInt16 × UInt16)
  | .boot => [(0x0000, 0x00FF), (0x0200, 0x08FF)]
  | .rom => [(0x0000, 0x7FFF)]
  | .vram => [(0x8000, 0x9FFF)]
  | .sram | .rtc => [(0xA000, 0xBFFF)]
  | .wram => [(0xC000, 0xDFFF), (0xE000, 0xFDFF)]
  | .oam => [(0xFE00, 0xFE9F)]
  | .io => [(0xFF00, 0xFF7F)]
  | .hram => [(0xFF80, 0xFFFE)]
  | .interruptEnable => [(0xFFFF, 0xFFFF)]

/-- An address lies in one of the windows of a region. -/
def Region.Answers (region : Region) (address : UInt16) : Prop :=
  ∃ window ∈ region.windows, window.1 ≤ address ∧ address ≤ window.2

instance (region : Region) (address : UInt16) : Decidable (region.Answers address) :=
  inferInstanceAs (Decidable (∃ _ ∈ _, _))

/-- An address below the end of a window answers there. -/
theorem Region.answers_below {region : Region} {address first past : UInt16}
    (inside : first ≤ address ∧ address < past) (window : (first, past - 1) ∈ region.windows) :
    region.Answers address := by
  have last : address ≤ past - 1 := by grind
  exact ⟨_, window, inside.1, last⟩

/-- The region that a place behind the bus lies in. -/
def Place.region? : Place → Option Region
  | .boot _ => some .boot
  | .rom _ _ => some .rom
  | .vram _ => some .vram
  | .sram _ => some .sram
  | .rtc _ => some .rtc
  | .wram _ => some .wram
  | .oam _ => some .oam
  | .io _ => some .io
  | .hram _ => some .hram
  | .interruptEnable => some .interruptEnable
  | .register _ | .openBus => none

/-! ## ROM -/

/-- The offset into a bank is the low fourteen bits of the address. -/
theorem mapUpperWindow_mod (bank : Nat) (address : UInt16) :
    mapUpperWindow bank address % 0x4000 = address.toNat % 0x4000 := by
  unfold mapUpperWindow windowOffset romBankSize
  split
  · rfl
  · omega

/-- A controller chooses a bank and leaves the offset within it alone. -/
theorem Controller.mapRom_mod (controller : Controller) (address : UInt16) :
    controller.mapRom address % 0x4000 = address.toNat % 0x4000 := by
  cases controller with
  | none => rfl
  | mbc1 m =>
    simp only [mapRom, Mbc1.mapRom, windowOffset, romBankSize]
    split
    · split
      · omega
      · omega
    · omega
  | mbc2 | mbc3 | mbc5 | flash => exact mapUpperWindow_mod _ address

/-- Where the RAM window shows nothing it is shut, or there is no RAM. -/
theorem Controller.shut_of_slot? {controller : Controller} {size : Nat} {address : UInt16}
    (window : 0xA000 ≤ address ∧ address < 0xC000)
    (nothing : controller.slot? size address = Option.none) :
    controller.sramEnabled = false ∨ size = 0 := by
  cases enabled : controller.sramEnabled with
  | false => exact .inl rfl
  | true =>
    rw [slot?, if_pos ⟨window.1, window.2, enabled⟩] at nothing
    split at nothing
    next => cases nothing
    next =>
      split at nothing
      next none => exact .inr none
      next => cases nothing

/-- The size of a ROM is a number of banks. -/
theorem Rom.dvd_size (rom : Rom) : 0x4000 ∣ rom.size := by
  obtain ⟨doublings, size⟩ := rom.size_eq
  rw [Rom.size, size, chipSize_eq]
  exact Nat.dvd_mul_right_of_dvd (by decide) _

namespace Hardware

variable (hw : Hardware) {address : UInt16}

/-- Nothing answers at an address: it lies between the sprite table and the device registers,
it is none of the registers, or the RAM window is shut or has no RAM behind it. -/
def Unanswered (address : UInt16) : Prop :=
  (0xFEA0 ≤ address ∧ address < 0xFF00) ∨
  (0xFF00 ≤ address ∧ address < 0xFF80 ∧ isListed (address.toNat - 0xFF00) = false) ∨
  (0xA000 ≤ address ∧ address < 0xC000 ∧
    (hw.cartridge.controller.sramEnabled = false ∨ hw.cartridge.sram.size = 0))

/-- What an address is decoded to: a byte of a region that answers there, nothing where nothing
answers, or a byte that a short boot image does not have. -/
inductive Decoded (address : UInt16) : Place → Prop where
  | byte {place : Place} {region : Region} (lies : place.region? = some region)
    (answers : region.Answers address) (kept : (hw.byte? place).isSome = true) :
    Decoded address place
  | nothing (unanswered : hw.Unanswered address) : Decoded address .openBus
  | missing (mapped : hw.bootMapped = true) (short : hw.memories.boot.size < 0x100)
    (past : hw.memories.boot.size ≤ address.toNat) (early : address.toNat < 0x100) :
    Decoded address (.boot address.toNat)

/-! ## The ROM area -/

/-- A boot image that is mapped answers at the first 0x100 addresses whatever its size is, and
further up only as far as it reaches. -/
theorem decoded_boot (answers : hw.bootAnswers address = true) :
    hw.Decoded address (.boot address.toNat) := by
  simp only [bootAnswers, Bool.and_eq_true, Bool.or_eq_true, decide_eq_true_eq] at answers
  obtain ⟨mapped, covered⟩ := answers
  by_cases inside : address.toNat < hw.memories.boot.size
  · have window : Region.boot.Answers address := by
      obtain early | ⟨⟨above, below⟩, -⟩ := covered
      · exact Region.answers_below ⟨UInt16.zero_le, early⟩ (by decide)
      · exact Region.answers_below ⟨above, below⟩ (by decide)
    exact .byte rfl window (by simp [byte?, inside])
  · have early : address < 0x0100 := covered.resolve_right fun further => inside further.2
    have short : address.toNat < 0x100 := UInt16.lt_iff_toNat_lt.mp early
    exact .missing mapped (by omega) (by omega) short

/-- Addresses of the ROM area are decoded to ROM. -/
theorem decoded_rom (below : address < 0x8000) :
    hw.Decoded address (hw.cartridge.romPlace address) := by
  have window : Region.rom.Answers address :=
    Region.answers_below ⟨UInt16.zero_le, below⟩ (by decide)
  have inside := Nat.mod_lt (hw.cartridge.controller.mapRom address) hw.cartridge.rom.size_pos
  refine .byte rfl window ?_
  show (hw.cartridge.rom.bytes[_]?).isSome = true
  rw [Array.getElem?_eq_getElem inside]
  rfl

/-- Addresses of the ROM area are decoded to ROM or boot image. -/
theorem decoded_program (below : address < 0x8000) : hw.Decoded address (hw.resolve address) := by
  unfold resolve
  rw [if_pos below]
  split
  next answers => exact hw.decoded_boot answers
  next => exact hw.decoded_rom below

/-! ## The RAM window -/

/-- Addresses of the RAM window are decoded. -/
theorem decoded_sram (window : 0xA000 ≤ address ∧ address < 0xC000) :
    hw.Decoded address (hw.resolve address) := by
  have answers : Region.sram.Answers address := Region.answers_below window (by decide)
  rw [hw.resolve_sram window, Cartridge.sramPlace_eq hw.cartridge window]
  cases found : hw.cartridge.controller.slot? hw.cartridge.sram.size address with
  | none =>
    exact .nothing (.inr (.inr ⟨window.1, window.2, Controller.shut_of_slot? window found⟩))
  | some slot =>
    have fits := Controller.fits_of_slot? found
    cases slot with
    | ram n =>
      have inside : n < hw.cartridge.sram.size := fits
      have kept : (hw.cartridge.sram[n]?).isSome = true := by simpa using inside
      exact .byte rfl answers kept
    | clock n =>
      have kept : (hw.cartridge.clock[n]?).isSome = true := by simpa using fits.1
      exact .byte rfl answers kept

/-! ## Plain memory and registers -/

/-- Plain memory that an address stands for is there. -/
theorem decoded_memory {place : Place} {region : Region} (found : hw.resolve address = place)
    (memory : place.isMemory = true) (lies : place.region? = some region)
    (answers : region.Answers address) : hw.Decoded address (hw.resolve address) := by
  subst found
  exact .byte lies answers (hw.kept_of_resolve memory)

/-- Addresses of work RAM and its echo resolve into work RAM. -/
theorem resolve_wram (window : 0xC000 ≤ address ∧ address < 0xFE00) :
    hw.resolve address = hw.wramPlace address := by
  grind [resolve]

/-- Addresses of work RAM and its echo are decoded. -/
theorem decoded_wram (window : 0xC000 ≤ address ∧ address < 0xFE00) :
    hw.Decoded address (hw.resolve address) := by
  have answers : Region.wram.Answers address := by
    by_cases own : address < 0xE000
    · exact Region.answers_below ⟨window.1, own⟩ (by decide)
    · exact Region.answers_below ⟨UInt16.not_lt.mp own, window.2⟩ (by decide)
  obtain ⟨n, place⟩ : ∃ n, hw.wramPlace address = .wram n := by
    unfold wramPlace
    dsimp only
    split
    · exact ⟨_, rfl⟩
    · exact ⟨_, rfl⟩
  exact hw.decoded_memory ((hw.resolve_wram window).trans place) rfl rfl answers

/-- Addresses of the I/O page resolve to the registers that are listed, and to the open bus. -/
theorem resolve_device (window : 0xFF00 ≤ address ∧ address < 0xFF80) :
    hw.resolve address =
      if isListed (address.toNat - 0xFF00) then .io (address.toNat - 0xFF00) else .openBus := by
  have place : hw.resolve address =
      if isListed (address - 0xFF00).toNat then .io (address - 0xFF00).toNat else .openBus := by
    grind [resolve]
  rw [place, toNat_above (UInt16.not_lt.mpr window.1)]
  rfl

/-- Addresses of the I/O page are decoded. -/
theorem decoded_device (window : 0xFF00 ≤ address ∧ address < 0xFF80) :
    hw.Decoded address (hw.resolve address) := by
  rw [hw.resolve_device window]
  split
  next listed =>
    have answers : Region.io.Answers address := Region.answers_below window (by decide)
    have top : address.toNat < 0xFF80 := UInt16.lt_iff_toNat_lt.mp window.2
    have kept : (hw.memories.io[address.toNat - 0xFF00]?).isSome = true := by
      simpa using show address.toNat - 0xFF00 < 0x80 by omega
    exact .byte rfl answers kept
  next unlisted =>
    exact .nothing (.inr (.inl ⟨window.1, window.2, Bool.eq_false_iff.mpr unlisted⟩))

/-! ## Every address -/

/-- Whatever an address is, it is decoded. -/
theorem decoded_resolve (address : UInt16) : hw.Decoded address (hw.resolve address) := by
  by_cases rom : address < 0x8000
  · exact hw.decoded_program rom
  by_cases vram : address < 0xA000
  · have window : 0x8000 ≤ address ∧ address < 0xA000 := ⟨UInt16.not_lt.mp rom, vram⟩
    have answers : Region.vram.Answers address := Region.answers_below window (by decide)
    exact hw.decoded_memory (hw.resolve_vram window) rfl rfl answers
  by_cases sram : address < 0xC000
  · exact hw.decoded_sram ⟨UInt16.not_lt.mp vram, sram⟩
  by_cases wram : address < 0xFE00
  · exact hw.decoded_wram ⟨UInt16.not_lt.mp sram, wram⟩
  by_cases oam : address < 0xFEA0
  · have window : 0xFE00 ≤ address ∧ address < 0xFEA0 := ⟨UInt16.not_lt.mp wram, oam⟩
    have answers : Region.oam.Answers address := Region.answers_below window (by decide)
    exact hw.decoded_memory (hw.resolve_oam window) rfl rfl answers
  by_cases gap : address < 0xFF00
  · have nothing : hw.resolve address = .openBus := by grind [resolve]
    rw [nothing]
    exact .nothing (.inl ⟨UInt16.not_lt.mp oam, gap⟩)
  by_cases device : address < 0xFF80
  · exact hw.decoded_device ⟨UInt16.not_lt.mp gap, device⟩
  by_cases hram : address < 0xFFFF
  · have window : 0xFF80 ≤ address ∧ address < 0xFFFF := ⟨UInt16.not_lt.mp device, hram⟩
    have answers : Region.hram.Answers address := Region.answers_below window (by decide)
    exact hw.decoded_memory (hw.resolve_hram window) rfl rfl answers
  · obtain rfl : address = 0xFFFF := by grind
    exact hw.decoded_memory rfl rfl rfl (by decide)

/-- The echo shows what lies 0x2000 addresses below. -/
theorem resolve_echo (echo : 0xE000 ≤ address ∧ address < 0xFE00) :
    hw.resolve address = hw.resolve (address - 0x2000) := by
  have window : 0xC000 ≤ address ∧ address < 0xFE00 := by grind
  have below : 0xC000 ≤ address - 0x2000 ∧ address - 0x2000 < 0xFE00 := by grind
  have offset : (address - 0x2000 - 0xC000).toNat % 0x2000 =
      (address - 0xC000).toNat % 0x2000 := by
    have base := UInt16.le_iff_toNat_le.mp echo.1
    rw [toNat_above (UInt16.not_lt.mpr below.1), toNat_above (by grind),
      toNat_above (UInt16.not_lt.mpr window.1)]
    simp only [UInt16.reduceToNat] at base ⊢
    omega
  rw [hw.resolve_wram window, hw.resolve_wram below]
  simp only [wramPlace, offset]

/-- A controller chooses the bank of a byte of ROM, the address the place within it. -/
theorem rom_of_resolve {hw : Hardware} {offset : Nat} {seen : UInt16}
    (found : hw.resolve address = .rom offset seen) :
    offset % 0x4000 = address.toNat % 0x4000 ∧ seen = address := by
  have place : hw.resolve address = hw.cartridge.romPlace address := by
    grind [resolve, Cartridge.sramPlace, wramPlace]
  rw [place] at found
  obtain ⟨rfl, rfl⟩ := Place.rom.inj found
  refine ⟨?_, rfl⟩
  -- Reducing an offset modulo the size of the chip leaves it alone modulo a bank.
  rw [Nat.mod_mod_of_dvd _ hw.cartridge.rom.dvd_size, Controller.mapRom_mod]

/-- A register that an address stands for is listed. -/
theorem listed_of_resolve {hw : Hardware} {n : Nat} (found : hw.resolve address = .io n) :
    isListed n = true ∧ n < 0x80 := by
  have distance := toNat_of_resolve_io found
  have bound : n < 0x80 := by
    have shown := hw.resolve_shown address
    rw [found] at shown
    cases shown with
    | io _ _ bound => exact bound
  have window : 0xFF00 ≤ address ∧ address < 0xFF80 := by
    rw [UInt16.le_iff_toNat_le, UInt16.lt_iff_toNat_lt, distance]
    exact ⟨Nat.le_add_right _ _, Nat.add_lt_add_left bound _⟩
  rw [hw.resolve_device window, distance, Nat.add_sub_cancel_left] at found
  refine ⟨?_, bound⟩
  by_contra unlisted
  rw [if_neg unlisted] at found
  cases found

end Hardware

namespace Machine

open Hardware

/-- Where there is a byte there is a cell. -/
theorem cell_of_kept (m : Machine) {place : Place} (kept : (m.bus.byte? place).isSome = true) :
    (m.cell? place).isSome = true := by
  rw [m.cell?_isSome]
  cases place with
  | register => rfl
  | _ => exact kept

/-- Whatever a machine is and has been through, every address stands for nothing where nothing
answers, for a cell that there is in a region that answers there, or for a byte that a short boot
image does not have. -/
theorem address_decoder_is_total_and_in_bounds (m : Machine) (address : UInt16) :
    let place := m.resolve address
    ((place = .openBus ∧ m.bus.Unanswered address) ∨
      (∃ region, place.region? = some region ∧ region.Answers address ∧
        (m.cell? place).isSome = true) ∨
      (place = .boot address.toNat ∧ m.bus.memories.boot.size ≤ address.toNat ∧
        m.bus.memories.boot.size < 0x100)) ∧
    (∀ offset seen, place = .rom offset seen →
      offset % 0x4000 = address.toNat % 0x4000 ∧ seen = address) ∧
    (∀ n, place = .io n → isListed n = true ∧ n < 0x80) ∧
    (0xE000 ≤ address → address < 0xFE00 → place = m.resolve (address - 0x2000)) := by
  intro place
  refine ⟨?_, fun _ _ => rom_of_resolve, fun _ => listed_of_resolve, ?_⟩
  · have decoded : m.bus.Decoded address place := m.bus.decoded_resolve address
    generalize place = place at decoded ⊢
    cases decoded with
    | byte lies answers kept =>
      exact .inr (.inl ⟨_, lies, answers, m.cell_of_kept kept⟩)
    | nothing unanswered => exact .inl ⟨rfl, unanswered⟩
    | missing _ short past _ => exact .inr (.inr ⟨rfl, past, short⟩)
  · intro first past
    exact m.bus.resolve_echo ⟨first, past⟩

/-- A controller set to bank 5 of two, under a boot image of three bytes. -/
def shortOfBytes : Machine :=
  let cartridge := { Cartridge.empty with controller := .mbc5 { romBank := 5 } }
  assemble cartridge #[0x31, 0xFE, 0xFF]

/-- The bank wraps, the last byte of the echo is the one 0x2000 addresses below, and the fourth
byte of the image is missing. -/
theorem address_decoder_is_total_and_in_bounds_of_shortOfBytes :
    let m := shortOfBytes
    (m.resolve 0x4010 = .rom 0x4010 0x4010 ∧ 0x4010 % 0x4000 = 0x10) ∧
      (m.resolve 0xFF44 = .io 0x44 ∧ isListed 0x44 = true) ∧
      m.resolve 0xFDFF = m.resolve 0xDDFF ∧
      (m.resolve 0x0003 = .boot 3 ∧ m.bus.memories.boot.size ≤ 3) := by
  intro m
  have chip : m.bus.cartridge.rom.size = 0x8000 := by
    show (Rom.padded (Array.replicate _ _)).size = 0x8000
    rw [Rom.size_padded, Array.size_replicate]
    rfl
  have wrapped : m.resolve 0x4010 = .rom 0x4010 0x4010 := by
    show Place.rom ((5 * 0x4000 + 0x10) % m.bus.cartridge.rom.size) 0x4010 = _
    rw [chip]
  have line : m.resolve 0xFF44 = .io 0x44 := rfl
  have last : m.resolve 0x0003 = .boot 3 := rfl
  obtain ⟨-, rom, -, -⟩ := address_decoder_is_total_and_in_bounds m 0x4010
  obtain ⟨-, -, device, -⟩ := address_decoder_is_total_and_in_bounds m 0xFF44
  obtain ⟨-, -, -, echo⟩ := address_decoder_is_total_and_in_bounds m 0xFDFF
  obtain ⟨total, -⟩ := address_decoder_is_total_and_in_bounds m 0x0003
  have missing : m.bus.memories.boot.size ≤ 3 := by
    rw [last] at total
    obtain ⟨nothing, -⟩ | ⟨_, -, -, kept⟩ | ⟨-, past, -⟩ := total
    · cases nothing
    · cases kept
    · exact past
  exact ⟨⟨wrapped, (rom _ _ wrapped).1⟩, ⟨line, (device _ line).1⟩, echo (by decide) (by decide),
    last, missing⟩

end Machine

end Handheld
