import Handheld.Proofs.Hardware.Stores
import Handheld.Proofs.Invariance
import Handheld.Proofs.Word
import Handheld.Proofs.Writes

/-!
# RAM in banks

Behind the windows for video RAM and work RAM lie several banks, and some addresses show
the same bytes as others. `ramByte?` tells which byte an address stands for, given what was
last written to the two registers that choose the banks: a bank of video RAM in color mode,
work RAM bank 0 in the lower half and its echo, a bank that is never 0 in the upper half and
its echo, and two memories without banks. Through any number of writes, to RAM and to the
two registers in any order, each byte keeps what was last written to it.
-/

set_option autoImplicit false

namespace Handheld

/-- A byte of RAM, by its bank and its place in the bank. -/
inductive RamByte where
  | video (bank : Fin 2) (offset : Fin 0x2000)
  | work (bank : Fin 8) (offset : Fin 0x1000)
  | sprite (offset : Fin 0xA0)
  | high (offset : Fin 0x7F)
  deriving DecidableEq

/-- The memories are kept bank after bank. -/
def RamByte.place : RamByte → Place
  | .video bank offset => .vram (bank * 0x2000 + offset)
  | .work bank offset => .wram (bank * 0x1000 + offset)
  | .sprite offset => .oam offset
  | .high offset => .hram offset

/-- Each byte of RAM has a place of its own. -/
theorem RamByte.place_injective : Function.Injective RamByte.place := by
  intro byte other same
  cases byte <;> cases other <;> simp [place] at same ⊢ <;> omega

/-- The bytes last written to the registers that choose a bank of video RAM and of work RAM. -/
structure BankChoice where
  video : UInt8 := 0
  work : UInt8 := 0

namespace BankChoice

/-- The bank of video RAM that is shown; without color there is but one. -/
def videoBank (choice : BankChoice) (color : Bool) : Fin 2 :=
  if color then ⟨choice.video.toNat % 2, by omega⟩ else ⟨0, by decide⟩

/-- In the upper window of work RAM bank 0 is not to be had. -/
def workBank (choice : BankChoice) (color : Bool) : Fin 8 :=
  if color then ⟨max 1 (choice.work.toNat % 8), by omega⟩ else ⟨1, by decide⟩

/-- The choice after a write. -/
def after (choice : BankChoice) (write : BusWrite) : BankChoice :=
  if write.address = 0xFF4F then { choice with video := write.value }
  else if write.address = 0xFF70 then { choice with work := write.value }
  else choice

end BankChoice

/-- The byte of RAM that an address stands for. -/
def ramByte? (color : Bool) (choice : BankChoice) (address : UInt16) : Option RamByte :=
  let n := address.toNat
  if 0x8000 ≤ address ∧ address < 0xA000 then
    some (.video (choice.videoBank color) ⟨n % 0x2000, by omega⟩)
  else if (0xC000 ≤ address ∧ address < 0xD000) ∨ (0xE000 ≤ address ∧ address < 0xF000) then
    some (.work ⟨0, by decide⟩ ⟨n % 0x1000, by omega⟩)
  else if (0xD000 ≤ address ∧ address < 0xE000) ∨ (0xF000 ≤ address ∧ address < 0xFE00) then
    some (.work (choice.workBank color) ⟨n % 0x1000, by omega⟩)
  else if 0xFE00 ≤ address ∧ address < 0xFEA0 then
    some (.sprite ⟨(n - 0xFE00) % 0xA0, by omega⟩)
  else if 0xFF80 ≤ address ∧ address < 0xFFFF then
    some (.high ⟨(n - 0xFF80) % 0x7F, by omega⟩)
  else
    none

/-- The addresses of video RAM, of work RAM and its echo, of the sprite table and of high RAM. -/
def IsRamAddress (address : UInt16) : Prop :=
  (0x8000 ≤ address ∧ address < 0xA000) ∨ (0xC000 ≤ address ∧ address < 0xFEA0) ∨
    (0xFF80 ≤ address ∧ address < 0xFFFF)

instance (address : UInt16) : Decidable (IsRamAddress address) :=
  inferInstanceAs (Decidable (_ ∨ _))

/-- Every RAM address shows a byte. -/
theorem ramByte?_isSome (color : Bool) (choice : BankChoice) {address : UInt16}
    (ram : IsRamAddress address) : (ramByte? color choice address).isSome = true := by
  unfold IsRamAddress at ram
  grind [ramByte?]

namespace Hardware

/-! ## Addresses -/

/-- The bank registers keep of what was last written to them the bits that choose a bank. -/
structure Banked (color : Bool) (choice : BankChoice) (hw : Hardware) : Prop where
  color : hw.color = color
  video : hw.stored .vbk = choice.video &&& 0x01
  work : hw.stored .svbk = choice.work &&& 0x07

variable {hw : Hardware} {color : Bool} {choice : BankChoice}

/-- The bank of video RAM that is shown is the one that was chosen. -/
theorem Banked.vramBank (banked : Banked color choice hw) :
    hw.vramBank = choice.videoBank color := by
  have bit : (choice.video &&& 0x01 &&& 0x01).toNat = choice.video.toNat % 2 := by
    rw [UInt8.and_assoc]
    exact toNat_and_low _ 1 rfl
  simp only [Hardware.vramBank, BankChoice.videoBank, banked.color, banked.video, bit]
  split <;> rfl

/-- The bank of work RAM that is shown is the one that was chosen. -/
theorem Banked.wramBank (banked : Banked color choice hw) :
    hw.wramBank = choice.workBank color := by
  have bits : (choice.work &&& 0x07 &&& 0x07).toNat = choice.work.toNat % 8 := by
    rw [UInt8.and_assoc]
    exact toNat_and_low _ 3 rfl
  simp only [Hardware.wramBank, BankChoice.workBank, banked.color, banked.work, bits]
  split <;> rfl

/-- Where an address stands for a byte of RAM, that byte is what the hardware finds. -/
theorem Banked.resolve (banked : Banked color choice hw) {address : UInt16} {byte : RamByte}
    (found : ramByte? color choice address = some byte) : hw.resolve address = byte.place := by
  simp only [ramByte?] at found
  repeat' split at found
  case isTrue video =>
    cases found
    simpa [RamByte.place, banked.vramBank] using hw.resolve_vram video
  case isTrue lower =>
    cases found
    simpa [RamByte.place] using hw.resolve_lower_wram lower
  case isTrue upper =>
    cases found
    simpa [RamByte.place, banked.wramBank] using hw.resolve_upper_wram upper
  case isTrue sprites =>
    cases found
    have top : address.toNat < 0xFEA0 := UInt16.lt_iff_toNat_lt.mp sprites.2
    have inside : (address.toNat - 0xFE00) % 0xA0 = address.toNat - 0xFE00 :=
      Nat.mod_eq_of_lt (by omega)
    simpa [RamByte.place, inside] using hw.resolve_oam sprites
  case isTrue high =>
    cases found
    have top : address.toNat < 0xFFFF := UInt16.lt_iff_toNat_lt.mp high.2
    have inside : (address.toNat - 0xFF80) % 0x7F = address.toNat - 0xFF80 :=
      Nat.mod_eq_of_lt (by omega)
    simpa [RamByte.place, inside] using hw.resolve_hram high
  case isFalse => contradiction

/-! ## Writes -/

/-- The writes that are looked at: to RAM, and to the registers that choose the banks. -/
def ReachesRam (write : BusWrite) : Prop :=
  IsRamAddress write.address ∨ write.address = 0xFF4F ∨ write.address = 0xFF70

instance (write : BusWrite) : Decidable (ReachesRam write) :=
  inferInstanceAs (Decidable (_ ∨ _))

/-- A bank register lies apart from RAM. -/
theorem load_setStored (hw : Hardware) (register : DeviceRegister) (value : UInt8)
    (byte : RamByte) : (hw.setStored register value).load byte.place = hw.load byte.place := by
  cases byte <;> rfl

/-- A write to the bank register of video RAM sets its lowest bit. -/
theorem take_video_bank (hw : Hardware) (value : UInt8) :
    hw.take ⟨0xFF4F, value⟩ = hw.setStored .vbk (value &&& 0x01) := by
  have place : hw.resolve 0xFF4F = .io 0x4F := rfl
  rw [take, place]
  rfl

/-- A write to the bank register of work RAM sets its three low bits. -/
theorem take_work_bank (hw : Hardware) (value : UInt8) :
    hw.take ⟨0xFF70, value⟩ = hw.setStored .svbk (value &&& 0x07) := by
  have place : hw.resolve 0xFF70 = .io 0x70 := rfl
  rw [take, place]
  rfl

/-- A write to RAM puts the byte where the address stands for, and the banks stay. -/
theorem Banked.take_ram (banked : Banked color choice hw) {write : BusWrite}
    (ram : IsRamAddress write.address) :
    Banked color choice (hw.take write) ∧ ∀ byte : RamByte, (hw.take write).load byte.place =
      if ramByte? color choice write.address = some byte then write.value
      else hw.load byte.place := by
  obtain ⟨target, found⟩ := Option.isSome_iff_exists.mp (ramByte?_isSome color choice ram)
  have place := banked.resolve found
  have memory : target.place.isMemory = true := by cases target <;> rfl
  have kept := hw.kept_of_resolve (place ▸ memory)
  have taken : hw.take write = hw.store target.place write.value := by rw [take, place]
  rw [place] at kept
  rw [taken]
  constructor
  · have elsewhere : ∀ n, target.place ≠ .io n := by
      intro n
      cases target <;> simp [RamByte.place]
    constructor
    · exact (hw.written_store _ _).color.trans banked.color
    · rw [hw.stored_store_of_ne _ (elsewhere _) (by simp) (by simp), banked.video]
    · rw [hw.stored_store_of_ne _ (elsewhere _) (by simp) (by simp), banked.work]
  · intro byte
    rw [hw.load_store_memory memory kept, found]
    simp [RamByte.place_injective.eq_iff, eq_comm]

/-- One write: the banks are chosen as it says, and it reaches no byte but the one that its
address stands for. -/
theorem Banked.take (banked : Banked color choice hw) (write : BusWrite)
    (reaches : ReachesRam write) :
    Banked color (choice.after write) (hw.take write) ∧
      ∀ byte : RamByte, (hw.take write).load byte.place =
        if ramByte? color choice write.address = some byte then write.value
        else hw.load byte.place := by
  obtain ⟨address, value⟩ := write
  rcases reaches with ram | rfl | rfl
  · have same : choice.after ⟨address, value⟩ = choice := by
      unfold IsRamAddress at ram
      grind [BankChoice.after]
    rw [same]
    exact banked.take_ram ram
  · rw [take_video_bank]
    constructor
    · constructor
      · exact banked.color
      · simp [stored_setStored, BankChoice.after]
      · simp [stored_setStored, BankChoice.after, banked.work]
    · intro byte
      rw [load_setStored]
      simp [ramByte?]
  · rw [take_work_bank]
    constructor
    · constructor
      · exact banked.color
      · simp [stored_setStored, BankChoice.after, banked.video]
      · simp [stored_setStored, BankChoice.after]
    · intro byte
      rw [load_setStored]
      simp [ramByte?]

end Hardware

namespace Machine

open Hardware

/-- After a reset the first banks are chosen. -/
theorem banked_reset (m : Machine) : Banked m.reset.bus.color {} m.reset.bus := by
  rcases m.reset_outcome with ⟨-, reset⟩ | ⟨-, reset⟩
  · rw [reset]
    exact ⟨rfl, stored_powerCycle _ _, stored_powerCycle _ _⟩
  · rw [reset]
    exact ⟨rfl, stored_postBoot _ _, stored_postBoot _ _⟩

/-- Two bytes of RAM are never kept in one place. After a reset and any writes to RAM and to
the registers that choose its banks, an address of RAM shows the byte last written to the
byte of RAM that it stands for, and what this byte showed before if there was none. -/
theorem ram_keeps_last_write :
    Function.Injective RamByte.place ∧
    ∀ (m : Machine) (writes : List BusWrite), (∀ write ∈ writes, ReachesRam write) →
      ∀ address, IsRamAddress address →
        let color := m.reset.bus.color
        let choice := writes.foldl BankChoice.after {}
        ∃ byte, ramByte? color choice address = some byte ∧
          (m.reset.writeAll writes).read address =
            (lastWritten BankChoice.after (ramByte? color) byte {} writes).getD
              (m.reset.bus.load byte.place) := by
  refine ⟨RamByte.place_injective, ?_⟩
  intro m writes reaches address ram color choice
  obtain ⟨byte, found⟩ := Option.isSome_iff_exists.mp (ramByte?_isSome color choice ram)
  refine ⟨byte, found, ?_⟩
  obtain ⟨banked, last⟩ := shown_foldl (fun hw (byte : RamByte) => hw.load byte.place) id
    (fun write banked reaches => banked.take write reaches) writes reaches m.banked_reset
  calc (m.reset.writeAll writes).read address
      = (m.reset.writeAll writes).bus.load ((m.reset.writeAll writes).bus.resolve address) :=
        (m.reset.writeAll writes).load_resolve address
    _ = (writes.foldl Hardware.take m.reset.bus).load byte.place := by
        rw [writeAll_bus, banked.resolve found]
    _ = _ := by
        rw [last, Option.map_id]
        rfl

/-- Bank 3 of work RAM keeps its byte while bank 1, which is also what 0 asks for, is written
to through the echo. -/
theorem ram_keeps_last_write_of_bank :
    let m := Machine.assemble (.assemble { color := true } #[] .none) #[]
    let writes : List BusWrite :=
      [⟨0xFF70, 0x03⟩, ⟨0xD123, 0x11⟩, ⟨0xFF70, 0x00⟩, ⟨0xF123, 0x22⟩, ⟨0xFF70, 0xFB⟩]
    (m.reset.writeAll writes).read 0xD123 = 0x11 ∧
      (m.reset.writeAll (writes ++ [⟨0xFF70, 0x01⟩])).read 0xD123 = 0x22 := by
  intro m writes
  have color : m.reset.bus.color = true := rfl
  have keeps := ram_keeps_last_write.2 m
  rw [color] at keeps
  constructor
  · obtain ⟨byte, found, shows⟩ := keeps writes (by decide) 0xD123 (by decide)
    have bank : byte = .work 3 0x123 := by
      apply Option.some_inj.mp
      rw [← found]
      decide
    rw [shows, bank]
    rfl
  · obtain ⟨byte, found, shows⟩ := keeps (writes ++ [⟨0xFF70, 0x01⟩]) (by decide) 0xD123 (by decide)
    have bank : byte = .work 1 0x123 := by
      apply Option.some_inj.mp
      rw [← found]
      decide
    rw [shows, bank]
    rfl

end Machine

end Handheld
