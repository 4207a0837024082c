import Handheld.Hardware.Bus
import Handheld.Proofs.System

/-!
# What an address can stand for

Whatever the banks are, an address of the bus stands for one of few kinds of places,
and the index is always one that the memory has. It never stands for a register of the
processor, and it stands for a device register only where that register lies.
-/

set_option autoImplicit false

namespace Handheld

namespace Hardware

/-- The places that an address may stand for, with what is known of their indices: ROM is
seen through the address itself, and a device register lies at it. -/
inductive Shown (address : UInt16) : Place → Prop where
  | boot (n : Nat) : Shown address (.boot n)
  | rom (offset : Nat) : Shown address (.rom offset address)
  | vram (n : Nat) (bound : n < 0x4000) : Shown address (.vram n)
  | sram (n : Nat) : Shown address (.sram n)
  | rtc (n : Nat) : Shown address (.rtc n)
  | wram (n : Nat) (bound : n < 0x8000) : Shown address (.wram n)
  | oam (n : Nat) (bound : n < 0xA0) : Shown address (.oam n)
  | io (n : Nat) (distance : address.toNat = 0xFF00 + n) (bound : n < 0x80) : Shown address (.io n)
  | hram (n : Nat) (bound : n < 0x7F) : Shown address (.hram n)
  | interruptEnable : Shown address .interruptEnable
  | openBus : Shown address .openBus

/-- There are two banks of video RAM. -/
theorem vramBank_le (hw : Hardware) : hw.vramBank ≤ 1 := by
  unfold vramBank
  split
  · rw [UInt8.toNat_and]
    exact Nat.and_le_right
  · exact Nat.zero_le _

/-- There are eight banks of work RAM. -/
theorem wramBank_le (hw : Hardware) : hw.wramBank ≤ 7 := by
  unfold wramBank
  split
  · have : (hw.stored .svbk &&& 0x07).toNat ≤ 7 := by
      rw [UInt8.toNat_and]
      exact Nat.and_le_right
    omega
  · decide

/-- How far an address lies above a base. -/
theorem toNat_above {address base : UInt16} (above : ¬ address < base) :
    (address - base).toNat = address.toNat - base.toNat :=
  UInt16.toNat_sub_of_le _ _ (UInt16.not_lt.mp above)

/-- The RAM window shows RAM, a clock register, or nothing. -/
theorem sramPlace_shown (cartridge : Cartridge) (address : UInt16) :
    Shown address (cartridge.sramPlace address) := by
  unfold Cartridge.sramPlace
  split
  · split
    · exact .rtc _
    · split
      · exact .openBus
      · exact .sram _
  · exact .openBus

/-- A work RAM address shows the place it resolves to. -/
theorem wramPlace_shown (hw : Hardware) (address : UInt16) :
    Shown address (hw.wramPlace address) := by
  have bank := hw.wramBank_le
  simp only [wramPlace]
  split
  next lower => exact .wram _ (Nat.lt_of_lt_of_le lower (by decide))
  next upper =>
    refine .wram _ ?_
    unfold wramBankSize at *
    omega

/-- A video RAM address shows the byte of the selected bank. -/
theorem vram_shown (hw : Hardware) {address : UInt16} (from8000 : ¬ address < 0x8000)
    (belowA000 : address < 0xA000) :
    Shown address (.vram (hw.vramBank * vramBankSize + (address - 0x8000).toNat)) := by
  have bank := hw.vramBank_le
  have top : address.toNat < 0xA000 := UInt16.lt_iff_toNat_lt.mp belowA000
  refine .vram _ ?_
  rw [toNat_above from8000]
  show hw.vramBank * 0x2000 + (address.toNat - 0x8000) < 0x4000
  omega

/-- A sprite address shows its byte of sprite memory. -/
theorem oam_shown {address : UInt16} (fromFE00 : ¬ address < 0xFE00)
    (belowFEA0 : address < 0xFEA0) :
    Shown address (.oam (address - 0xFE00).toNat) := by
  have top : address.toNat < 0xFEA0 := UInt16.lt_iff_toNat_lt.mp belowFEA0
  refine .oam _ ?_
  rw [toNat_above fromFE00]
  show address.toNat - 0xFE00 < 0xA0
  omega

/-- An I/O address shows its register. -/
theorem io_shown {address : UInt16} (fromFF00 : ¬ address < 0xFF00)
    (belowFF80 : address < 0xFF80) :
    Shown address (.io (address - 0xFF00).toNat) := by
  have base : 0xFF00 ≤ address.toNat := UInt16.le_iff_toNat_le.mp (UInt16.not_lt.mp fromFF00)
  have top : address.toNat < 0xFF80 := UInt16.lt_iff_toNat_lt.mp belowFF80
  have distance : (address - 0xFF00).toNat = address.toNat - 0xFF00 := toNat_above fromFF00
  exact .io _ (by omega) (by omega)

/-- A high RAM address shows its byte of high RAM. -/
theorem hram_shown {address : UInt16} (fromFF80 : ¬ address < 0xFF80)
    (belowFFFF : address < 0xFFFF) :
    Shown address (.hram (address - 0xFF80).toNat) := by
  have top : address.toNat < 0xFFFF := UInt16.lt_iff_toNat_lt.mp belowFFFF
  refine .hram _ ?_
  rw [toNat_above fromFF80]
  show address.toNat - 0xFF80 < 0x7F
  omega

/-- An address stands for one of the places listed. -/
theorem resolve_shown (hw : Hardware) (address : UInt16) : Shown address (hw.resolve address) := by
  unfold resolve
  split
  · split
    · exact .boot _
    · exact .rom _
  next from8000 =>
    split
    next belowA000 => exact hw.vram_shown from8000 belowA000
    next =>
      split
      · exact sramPlace_shown _ _
      · split
        · exact hw.wramPlace_shown _
        next fromFE00 =>
          split
          next belowFEA0 => exact oam_shown fromFE00 belowFEA0
          next =>
            split
            · exact .openBus
            next fromFF00 =>
              split
              next belowFF80 =>
                dsimp only
                split
                · exact io_shown fromFF00 belowFF80
                · exact .openBus
              next fromFF80 =>
                split
                next belowFFFF => exact hram_shown fromFF80 belowFFFF
                next => exact .interruptEnable

/-- An address never stands for a register of the processor. -/
theorem resolve_ne_register (hw : Hardware) (address : UInt16) (r : Register) :
    hw.resolve address ≠ .register r := by
  intro found
  have shown := hw.resolve_shown address
  rw [found] at shown
  cases shown

/-- A device register answers at its distance from FF00 and nowhere else. -/
theorem toNat_of_resolve_io {hw : Hardware} {address : UInt16} {n : Nat}
    (device : hw.resolve address = .io n) : address.toNat = 0xFF00 + n := by
  have shown := hw.resolve_shown address
  rw [device] at shown
  cases shown with
  | io _ distance _ => exact distance

/-- What is read at an address is what its place shows. -/
theorem read_of_resolve {hw : Hardware} {address : UInt16} {place : Place}
    (found : hw.resolve address = place) : AddressSpace.read hw address = hw.load place :=
  congrArg hw.load found

/-! ## Where the memories answer -/

/-- Video RAM addresses resolve into the selected bank. -/
theorem resolve_vram (hw : Hardware) {address : UInt16}
    (window : 0x8000 ≤ address ∧ address < 0xA000) :
    hw.resolve address = .vram (hw.vramBank * 0x2000 + address.toNat % 0x2000) := by
  have place : hw.resolve address =
      .vram (hw.vramBank * vramBankSize + (address - 0x8000).toNat) := by
    grind [resolve]
  have distance := toNat_above (UInt16.not_lt.mpr window.1)
  simp only [UInt16.le_iff_toNat_le, UInt16.lt_iff_toNat_lt, UInt16.reduceToNat] at window distance
  have offset : (address - 0x8000).toNat = address.toNat % 0x2000 := by omega
  rw [place, offset, vramBankSize]

/-- RAM window addresses resolve as the cartridge says. -/
theorem resolve_sram (hw : Hardware) {address : UInt16}
    (window : 0xA000 ≤ address ∧ address < 0xC000) :
    hw.resolve address = hw.cartridge.sramPlace address := by
  grind [resolve]

/-- The lower half of work RAM and its echo show bank 0. -/
theorem resolve_lower_wram (hw : Hardware) {address : UInt16}
    (lower : (0xC000 ≤ address ∧ address < 0xD000) ∨ (0xE000 ≤ address ∧ address < 0xF000)) :
    hw.resolve address = .wram (address.toNat % 0x1000) := by
  have place : hw.resolve address = hw.wramPlace address := by grind [resolve]
  have distance : (address - 0xC000).toNat = address.toNat - 0xC000 := toNat_above (by grind)
  simp only [UInt16.le_iff_toNat_le, UInt16.lt_iff_toNat_lt, UInt16.reduceToNat] at lower
  have offset : (address - 0xC000).toNat % 0x2000 = address.toNat % 0x1000 := by omega
  have below : address.toNat % 0x1000 < wramBankSize := Nat.mod_lt _ (by decide)
  simp only [place, wramPlace, offset, if_pos below]

/-- The upper half and its echo show the bank chosen. -/
theorem resolve_upper_wram (hw : Hardware) {address : UInt16}
    (upper : (0xD000 ≤ address ∧ address < 0xE000) ∨ (0xF000 ≤ address ∧ address < 0xFE00)) :
    hw.resolve address = .wram (hw.wramBank * 0x1000 + address.toNat % 0x1000) := by
  have place : hw.resolve address = hw.wramPlace address := by grind [resolve]
  have distance : (address - 0xC000).toNat = address.toNat - 0xC000 := toNat_above (by grind)
  simp only [UInt16.le_iff_toNat_le, UInt16.lt_iff_toNat_lt, UInt16.reduceToNat] at upper
  have offset : (address - 0xC000).toNat % 0x2000 = 0x1000 + address.toNat % 0x1000 := by omega
  have above : ¬ 0x1000 + address.toNat % 0x1000 < wramBankSize :=
    Nat.not_lt.mpr (Nat.le_add_right _ _)
  rw [place, wramPlace, offset, if_neg above]
  simp [wramBankSize]

/-- Sprite addresses resolve into sprite memory. -/
theorem resolve_oam (hw : Hardware) {address : UInt16}
    (window : 0xFE00 ≤ address ∧ address < 0xFEA0) :
    hw.resolve address = .oam (address.toNat - 0xFE00) := by
  have place : hw.resolve address = .oam (address - 0xFE00).toNat := by grind [resolve]
  rw [place, toNat_above (UInt16.not_lt.mpr window.1)]
  rfl

/-- High RAM addresses resolve into high RAM. -/
theorem resolve_hram (hw : Hardware) {address : UInt16}
    (window : 0xFF80 ≤ address ∧ address < 0xFFFF) :
    hw.resolve address = .hram (address.toNat - 0xFF80) := by
  have place : hw.resolve address = .hram (address - 0xFF80).toNat := by grind [resolve]
  rw [place, toNat_above (UInt16.not_lt.mpr window.1)]
  rfl

end Hardware

/-- What a processor reads at an address is what its address space shows there. -/
theorem System.load_resolve (s : System Hardware) (address : UInt16) :
    s.load (s.resolve address) = AddressSpace.read s.bus address :=
  s.load_place (s.bus.resolve_ne_register address)

end Handheld
