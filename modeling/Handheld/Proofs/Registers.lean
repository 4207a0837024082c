import Handheld.Proofs.AddressDecoder
import Handheld.Proofs.Writes

/-!
# Device registers do not interfere

A store to a device register can set a device to work: a transfer starts, the divider starts anew,
a block of memory is copied, a palette moves on. Most registers show a byte of their own, and the
others a part of the devices that belongs to them alone (`load_io_congr`). So the store shows in no
other register. The palettes are the exception: the byte that one register shows is selected by
another, and storing it may move the selector on (`Coupled`).
-/

set_option autoImplicit false

namespace Handheld

namespace Hardware

/-! ## Registers that belong together -/

/-- The two sets of color palettes. -/
inductive ColorPalette where
  | background | sprites
  deriving DecidableEq

namespace ColorPalette

/-- The register that selects a byte of the palettes. -/
def selector : ColorPalette → DeviceRegister
  | background => .bcps
  | sprites => .ocps

/-- The register that shows the byte selected. -/
def data : ColorPalette → DeviceRegister
  | background => .bcpd
  | sprites => .ocpd

/-- The bytes of the palettes. -/
def bytes (palette : ColorPalette) (hw : Hardware) : Vector UInt8 0x40 :=
  match palette with
  | background => hw.memories.backgroundPalette
  | sprites => hw.memories.spritePalette

/-- Each palette has a selector of its own. -/
theorem selector_injective {palette other : ColorPalette}
    (same : (palette.selector.offset : Nat) = other.selector.offset) : palette = other := by
  cases palette <;> cases other <;> first | rfl | cases same

/-- Each palette has a data register of its own. -/
theorem data_injective {palette other : ColorPalette}
    (same : (palette.data.offset : Nat) = other.data.offset) : palette = other := by
  cases palette <;> cases other <;> first | rfl | cases same

/-- No selector is a data register. -/
theorem offsets_apart (palette other : ColorPalette) :
    (palette.selector.offset : Nat) ≠ other.data.offset := by
  cases palette <;> cases other <;> decide

/-- The two registers of a palette are different. -/
theorem selector_ne_data (palette : ColorPalette) : palette.selector ≠ palette.data := by
  intro same
  exact palette.offsets_apart palette (congrArg (fun r => (r.offset : Nat)) same)

end ColorPalette

/-- Two distances from FF00 at which there are the selector of a palette and the register that shows
the byte selected. -/
def Coupled (n m : Nat) : Prop :=
  ∃ palette : ColorPalette,
    (n = palette.selector.offset ∧ m = palette.data.offset) ∨
      (n = palette.data.offset ∧ m = palette.selector.offset)

/-- A selector is coupled to the data register of its palette, and to nothing else. -/
theorem coupled_selector_iff (palette : ColorPalette) {m : Nat} :
    Coupled palette.selector.offset m ↔ m = palette.data.offset := by
  constructor
  · rintro ⟨which, ⟨selects, shows⟩ | ⟨mistaken, -⟩⟩
    · rw [ColorPalette.selector_injective selects, shows]
    · exact absurd mistaken (palette.offsets_apart which)
  · rintro rfl
    exact ⟨palette, .inl ⟨rfl, rfl⟩⟩

/-- A data register is coupled to the selector of its palette, and to nothing else. -/
theorem coupled_data_iff (palette : ColorPalette) {m : Nat} :
    Coupled palette.data.offset m ↔ m = palette.selector.offset := by
  constructor
  · rintro ⟨which, ⟨mistaken, -⟩ | ⟨shows, selects⟩⟩
    · exact absurd mistaken.symm (which.offsets_apart palette)
    · rw [ColorPalette.data_injective shows, selects]
  · rintro rfl
    exact ⟨palette, .inr ⟨rfl, rfl⟩⟩

/-- A register of no palette is coupled to nothing. -/
theorem not_coupled {n m : Nat}
    (apart : ∀ palette : ColorPalette, n ≠ palette.selector.offset ∧ n ≠ palette.data.offset) :
    ¬ Coupled n m := by
  rintro ⟨palette, ⟨selects, -⟩ | ⟨shows, -⟩⟩
  · exact (apart palette).1 selects
  · exact (apart palette).2 shows

/-! ## What a register shows -/

/-- A register shows the byte stored there, in the light of the devices. -/
theorem load_io_congr {hw next : Hardware} {m : Nat}
    (kept : next.memories.io[m]? = hw.memories.io[m]?)
    (alike : ∀ q : DeviceRegister, m = q.offset → ∀ stored,
      next.registerShows q stored = hw.registerShows q stored) :
    next.load (.io m) = hw.load (.io m) := by
  simp only [load, kept]
  split
  · split
    next q found => exact alike q (DeviceRegister.eq_offset found) _
    next => rfl
  · rfl

/-- The serial interface shows in its control register alone. -/
theorem load_serial (hw : Hardware) (serial : SerialInterface) {m : Nat}
    (other : m ≠ DeviceRegister.sc.offset) :
    { hw with serial }.load (.io m) = hw.load (.io m) := by
  refine load_io_congr ?_ ?_
  · rfl
  rintro q rfl stored
  cases q with
  | sc => exact absurd rfl other
  | _ => rfl

/-- The timer shows in the divider alone. -/
theorem load_timer (hw : Hardware) (timer : Timer) {m : Nat}
    (other : m ≠ DeviceRegister.div.offset) :
    { hw with timer }.load (.io m) = hw.load (.io m) := by
  refine load_io_congr ?_ ?_
  · rfl
  rintro q rfl stored
  cases q with
  | div => exact absurd rfl other
  | _ => rfl

/-- Of a palette one byte is shown. -/
theorem registerShows_data (hw : Hardware) (palette : ColorPalette) (stored : UInt8) :
    hw.registerShows palette.data stored =
      (palette.bytes hw).get (paletteIndex (hw.stored palette.selector)) := by
  cases palette <;> rfl

/-- The hardware with other bytes in a palette. -/
def withPalette (hw : Hardware) (palette : ColorPalette) (bytes : Vector UInt8 0x40) : Hardware :=
  match palette with
  | .background => { hw with memories := { hw.memories with backgroundPalette := bytes } }
  | .sprites => { hw with memories := { hw.memories with spritePalette := bytes } }

/-- A palette shows in its data register alone. -/
theorem load_withPalette (hw : Hardware) (palette : ColorPalette) (bytes : Vector UInt8 0x40)
    {m : Nat} (other : m ≠ palette.data.offset) :
    (hw.withPalette palette bytes).load (.io m) = hw.load (.io m) := by
  refine load_io_congr ?_ ?_
  · cases palette <;> rfl
  rintro q rfl stored
  cases palette with
  | background =>
    cases q with
    | bcpd => exact absurd rfl other
    | _ => rfl
  | sprites =>
    cases q with
    | ocpd => exact absurd rfl other
    | _ => rfl

/-- The hardware with other stored bytes in the device registers. -/
def withIo (hw : Hardware) (io : Vector UInt8 0x80) : Hardware :=
  { hw with memories := { hw.memories with io } }

/-- One stored byte shows in its own register, and in the register for which it selects. -/
theorem load_withIo (hw : Hardware) {io : Vector UInt8 0x80} {n m : Nat}
    (differs : ∀ k, k ≠ n → io[k]? = hw.memories.io[k]?) (other : m ≠ n)
    (uncoupled : ¬ Coupled n m) : (hw.withIo io).load (.io m) = hw.load (.io m) := by
  refine load_io_congr (differs m other) ?_
  rintro q rfl stored
  have selected (palette : ColorPalette) (shows : q = palette.data) :
      (hw.withIo io).stored palette.selector = hw.stored palette.selector := by
    have apart : palette.selector.offset.val ≠ n := by
      rintro rfl
      exact uncoupled ⟨palette, .inl ⟨rfl, by rw [shows]⟩⟩
    have same := differs _ apart
    rw [Vector.getElem?_eq_getElem palette.selector.offset.isLt,
      Vector.getElem?_eq_getElem palette.selector.offset.isLt] at same
    exact Option.some.inj same
  have shown (palette : ColorPalette) (shows : q = palette.data) :
      (hw.withIo io).registerShows palette.data stored =
        hw.registerShows palette.data stored := by
    rw [registerShows_data, registerShows_data, selected palette shows]
    cases palette <;> rfl
  cases q with
  | bcpd => exact shown .background rfl
  | ocpd => exact shown .sprites rfl
  | _ => rfl

/-! ## What a store leaves alone -/

/-- Setting a register shows in no other register that is not coupled to it. -/
theorem load_setStored_of_uncoupled (hw : Hardware) {r : DeviceRegister} (value : UInt8) {m : Nat}
    (other : m ≠ r.offset) (uncoupled : ¬ Coupled r.offset m) :
    (hw.setStored r value).load (.io m) = hw.load (.io m) := by
  refine hw.load_withIo ?_ other uncoupled
  intro k apart
  exact Vector.getElem?_set_ne r.offset.isLt apart.symm

/-- Block copies end in plain memory, at which no register looks. -/
theorem load_io_copied (hw : Hardware) (moves : List Move) (m : Nat) :
    (moves.foldl carryOut hw).load (.io m) = hw.load (.io m) := by
  induction moves generalizing hw with
  | nil => rfl
  | cons move moves ih => exact (ih (hw.carryOut move)).trans (hw.load_io_storeMemory _ _ m)

/-- A byte of a palette is shown in one register, and its selector is another. -/
theorem load_writePalette (hw : Hardware) (palette : ColorPalette) (bytes : Vector UInt8 0x40)
    (selector : UInt8) {m : Nat} (other : m ≠ palette.data.offset)
    (uncoupled : ¬ Coupled palette.data.offset m) :
    ((hw.withPalette palette bytes).setStored palette.selector selector).load (.io m) =
      hw.load (.io m) := by
  rw [coupled_data_iff] at uncoupled
  rw [load_setStored_of_uncoupled _ _ uncoupled (mt (coupled_selector_iff palette).mp other),
    load_withPalette _ _ _ other]

/-- Setting a device to work shows in the register that did it, and in the selector of a palette. -/
theorem load_registerActs (hw : Hardware) (r : DeviceRegister) (value : UInt8) {m : Nat}
    (other : m ≠ r.offset) (uncoupled : ¬ Coupled r.offset m) :
    (hw.registerActs r value).load (.io m) = hw.load (.io m) := by
  cases r with
  | sc =>
    simp only [registerActs, startSerial]
    split
    · exact hw.load_serial _ other
    · rfl
  | div => exact hw.load_timer _ other
  | dma => exact hw.load_io_copied _ m
  | hdma5 =>
    simp only [registerActs]
    split
    · exact hw.load_io_copied _ m
    · rfl
  | bcpd => exact hw.load_writePalette .background _ _ other uncoupled
  | ocpd => exact hw.load_writePalette .sprites _ _ other uncoupled
  | _ => rfl

/-- Whatever a store reaches, it shows in no register but its own and those that belong to it. -/
theorem load_io_store (hw : Hardware) (place : Place) (value : UInt8) {m : Nat}
    (apart : ∀ n, place = .io n → m ≠ n ∧ ¬ Coupled n m) :
    (hw.store place value).load (.io m) = hw.load (.io m) := by
  cases place with
  | io n =>
    obtain ⟨other, uncoupled⟩ := apart n rfl
    simp only [store, storeDevice]
    split
    next r found =>
      obtain rfl := DeviceRegister.eq_offset found
      exact (load_setStored_of_uncoupled _ _ other uncoupled).trans
        (hw.load_registerActs r value other uncoupled)
    next =>
      refine hw.load_withIo ?_ other uncoupled
      intro k elsewhere
      exact Vector.getElem?_setIfInBounds_ne elsewhere.symm
  | rom _ _ | sram _ | rtc _ =>
    refine load_io_congr ?_ ?_
    · rfl
    · intro q _ stored
      cases q <;> rfl
  | _ => exact hw.load_io_storeMemory _ _ m

/-! ## Addresses -/

/-- The address of a register. -/
def registerAddress (n : Nat) : UInt16 := 0xFF00 + UInt16.ofNat n

/-- The addresses of the registers begin at 0xFF00. -/
theorem toNat_registerAddress {n : Nat} (bound : n < 0x80) :
    (registerAddress n).toNat = 0xFF00 + n :=
  toNat_add_ofNat 0xFF00 (by show 0xFF00 + n < 0x10000; omega)

/-- A register answers at its address only. -/
theorem eq_registerAddress {hw : Hardware} {address : UInt16} {n : Nat}
    (found : hw.resolve address = .io n) : address = registerAddress n := by
  apply UInt16.toNat_inj.mp
  rw [toNat_registerAddress (listed_of_resolve found).2, toNat_of_resolve_io found]

/-- The address of a register stands for it, if it is listed. -/
theorem resolve_register (hw : Hardware) {n : Nat} (bound : n < 0x80) :
    hw.resolve (registerAddress n) = if isListed n then .io n else .openBus := by
  have window : 0xFF00 ≤ registerAddress n ∧ registerAddress n < 0xFF80 :=
    window_add_ofNat (Nat.add_lt_add_left bound _)
  rw [hw.resolve_device window, toNat_registerAddress bound, Nat.add_sub_cancel_left]

/-- Nothing is shown where no register lies. -/
theorem read_register (hw : Hardware) {n : Nat} (bound : n < 0x80) :
    AddressSpace.read hw (registerAddress n) = if isListed n then hw.load (.io n) else 0xFF := by
  rw [read_of_resolve (hw.resolve_register bound)]
  split <;> rfl

/-- A write to the address of a register stores there, if it is listed. -/
theorem take_register (hw : Hardware) {n : Nat} (bound : n < 0x80) (value : UInt8) :
    hw.take ⟨registerAddress n, value⟩ =
      if isListed n then hw.store (.io n) value else hw := by
  show hw.store (hw.resolve (registerAddress n)) value = _
  rw [hw.resolve_register bound]
  split <;> rfl

/-! ## The registers of a palette -/

/-- The registers of the palettes are listed. -/
theorem ColorPalette.listed (palette : ColorPalette) :
    isListed palette.selector.offset = true ∧ isListed palette.data.offset = true := by
  cases palette <;> decide

/-- Setting a register leaves the bytes of the palettes alone. -/
theorem ColorPalette.bytes_setStored (palette : ColorPalette) (hw : Hardware) (r : DeviceRegister)
    (value : UInt8) : palette.bytes (hw.setStored r value) = palette.bytes hw := by
  cases palette <;> rfl

/-- A selector takes any byte. -/
theorem take_selector (hw : Hardware) (palette : ColorPalette) (value : UInt8) :
    hw.take ⟨registerAddress palette.selector.offset, value⟩ =
      hw.setStored palette.selector value := by
  rw [take_register _ palette.selector.offset.isLt, if_pos palette.listed.1]
  cases palette <;> rfl

/-- A byte for a palette goes where the selector says, and the selector moves on. -/
theorem take_data (hw : Hardware) (palette : ColorPalette) (value : UInt8) :
    let selector := hw.stored palette.selector
    hw.take ⟨registerAddress palette.data.offset, value⟩ =
      ((hw.withPalette palette ((palette.bytes hw).set (paletteIndex selector) value)).setStored
        palette.selector (nextSelector selector)).setStored palette.data value := by
  intro selector
  rw [take_register _ palette.data.offset.isLt, if_pos palette.listed.2]
  cases palette <;> rfl

/-- A selector reads as it is stored. -/
theorem read_selector (hw : Hardware) (palette : ColorPalette) :
    AddressSpace.read hw (registerAddress palette.selector.offset) =
      hw.stored palette.selector := by
  rw [read_register _ palette.selector.offset.isLt, if_pos palette.listed.1]
  cases palette <;> rfl

/-- A data register reads as the byte that its selector chooses. -/
theorem read_data (hw : Hardware) (palette : ColorPalette) :
    AddressSpace.read hw (registerAddress palette.data.offset) =
      (palette.bytes hw).get (paletteIndex (hw.stored palette.selector)) := by
  rw [read_register _ palette.data.offset.isLt, if_pos palette.listed.2]
  cases palette <;> rfl

/-- A store to one device register shows in no other, whatever it sets to work. Only a palette has
two registers that belong together: a byte written through one of them may move the other on, which
is the selector, and where the selector is moved to, that byte is shown. -/
theorem registers_do_not_interfere (hw : Hardware) {n m : Nat} (first : n < 0x80)
    (second : m < 0x80) (other : m ≠ n) (value : UInt8) :
    let next := hw.take ⟨registerAddress n, value⟩
    (¬ Coupled n m →
      AddressSpace.read next (registerAddress m) = AddressSpace.read hw (registerAddress m)) ∧
    ∀ palette : ColorPalette,
      (n = palette.data.offset → m = palette.selector.offset →
        AddressSpace.read next (registerAddress m) =
          nextSelector (AddressSpace.read hw (registerAddress m))) ∧
      (n = palette.selector.offset → m = palette.data.offset →
        AddressSpace.read next (registerAddress m) =
          (palette.bytes hw).get (paletteIndex value)) := by
  intro next
  refine ⟨?_, fun palette => ⟨?_, ?_⟩⟩
  · intro uncoupled
    have taken : next = if isListed n then hw.store (.io n) value else hw :=
      hw.take_register first value
    rw [taken]
    split
    · rw [read_register _ second, read_register _ second, load_io_store]
      rintro k same
      obtain rfl := Place.io.inj same
      exact ⟨other, uncoupled⟩
    · rfl
  · rintro rfl rfl
    have apart := palette.selector_ne_data
    rw [read_selector, read_selector, show next = _ from hw.take_data palette value,
      stored_setStored, if_neg apart.symm, stored_setStored, if_pos rfl]
  · rintro rfl rfl
    rw [read_data, show next = _ from hw.take_selector palette value, stored_setStored, if_pos rfl,
      ColorPalette.bytes_setStored]

/-- The last byte of the background palettes is written and the selector starts again, while the
sprite palettes show what they did. A copy into the sprite table, which takes its page from the
register of the copy, leaves the selector where it is. -/
theorem registers_do_not_interfere_of_streaming :
    let hw := (assemble .empty #[]).take ⟨registerAddress 0x68, 0xBF⟩
    let streamed := hw.take ⟨registerAddress 0x69, 0x12⟩
    let copied := hw.take ⟨registerAddress 0x46, 0xFF⟩
    AddressSpace.read streamed (registerAddress 0x68) = 0x80 ∧
      AddressSpace.read streamed (registerAddress 0x6B) = 0xFF ∧
      AddressSpace.read copied (registerAddress 0x68) = 0xBF := by
  intro hw streamed copied
  have selector : AddressSpace.read hw (registerAddress 0x68) = 0xBF := by decide +kernel
  have sprites : AddressSpace.read hw (registerAddress 0x6B) = 0xFF := by decide +kernel
  have apart : ¬ Coupled 0x69 0x6B := (coupled_data_iff .background).not.mpr (by decide)
  have alone : ¬ Coupled 0x46 0x68 := not_coupled (by rintro (_ | _) <;> decide)
  have moves := (registers_do_not_interfere hw (show 0x69 < 0x80 by decide)
    (show 0x68 < 0x80 by decide) (by decide) 0x12).2 .background
  have stays := (registers_do_not_interfere hw (show 0x69 < 0x80 by decide)
    (show 0x6B < 0x80 by decide) (by decide) 0x12).1 apart
  have remains := (registers_do_not_interfere hw (show 0x46 < 0x80 by decide)
    (show 0x68 < 0x80 by decide) (by decide) 0xFF).1 alone
  refine ⟨(moves.1 rfl rfl).trans ?_, stays.trans sprites, remains.trans selector⟩
  rw [selector]
  decide

end Hardware

end Handheld
