import Handheld.Proofs.CartridgeRam
import Handheld.Proofs.Hardware.CatchUp
import Handheld.Proofs.Hardware.Stores
import Handheld.Proofs.Invariance

/-!
# The half-bytes of the second controller

The RAM that is built into the second controller keeps four bits a byte, and the others read
as one. No read sees to that: the bits are set in the bytes themselves. They are set when a
board is put together with this controller, every store sets them again, and a reset leaves
them alone. Putting the controller on a board that was built with another one sets none of
them. The RAM of that board stays what it was, and what is added to it is zero.

So the half-bytes are reliable exactly as far as the second controller is never put on a
board whose first 512 bytes of RAM are no half-bytes (`reads_half_bytes_iff`).
-/

set_option autoImplicit false

namespace Handheld

/-- A controller of the second kind is an `Mbc2`. -/
theorem Controller.eq_of_kind {controller : Controller} (second : controller.kind = .mbc2) :
    ∃ mbc2, controller = .mbc2 mbc2 := by
  cases controller with
  | mbc2 m => exact ⟨m, rfl⟩
  | mbc3 m =>
    obtain ⟨hasClock, _, _, _⟩ := m
    cases hasClock <;> cases second
  | _ => cases second

namespace Cartridge

/-- The first 512 bytes of RAM are there and have their upper halves set. -/
def HasHalfBytes (cartridge : Cartridge) : Prop :=
  ∀ n < Mbc2.sramSize, cartridge.sram.getD n 0x00 &&& 0xF0 = 0xF0

/-- A board with the second controller has half-bytes. -/
def KeepsHalfBytes (cartridge : Cartridge) : Prop :=
  cartridge.controller.kind = .mbc2 → cartridge.HasHalfBytes

/-- A board that holds half bytes has the whole RAM of the second controller. -/
theorem HasHalfBytes.size {cartridge : Cartridge} (half : cartridge.HasHalfBytes) :
    Mbc2.sramSize ≤ cartridge.sram.size := by
  by_contra short
  have last := half (Mbc2.sramSize - 1) (by decide)
  have outside : cartridge.sram.size ≤ Mbc2.sramSize - 1 := by omega
  rw [Array.getD_eq_getD_getElem?, Array.getElem?_eq_none outside] at last
  exact absurd last (by decide)

/-! ## What keeps the half-bytes -/

/-- RAM that is built together with the second controller is filled with half-bytes. -/
theorem keepsHalfBytes_assemble (header : Header) (image : Array UInt8) (controller : Controller) :
    (assemble header image controller).KeepsHalfBytes := by
  intro second n bound
  have second : controller.kind = .mbc2 := second
  obtain ⟨mbc2, rfl⟩ := Controller.eq_of_kind second
  have inside : n < max header.sramBytes Mbc2.sramSize :=
    Nat.lt_of_lt_of_le bound (le_max_right _ _)
  simp [assemble, Controller.leastSram, inside, Controller.sramOnes]

/-- A store leaves the kind of controller in place. -/
theorem kind_store (cartridge : Cartridge) (place : Place) (value : UInt8) :
    (cartridge.store place value).controller.kind = cartridge.controller.kind := by
  cases place with
  | rom offset address =>
    show (obey _ (cartridge.controller.command address value)).controller.kind = _
    unfold obey
    split <;> exact cartridge.controller.kind_write address value
  | _ => rfl

/-- A store sets the upper half of the byte it reaches. -/
theorem keepsHalfBytes_store {cartridge : Cartridge} (keeps : cartridge.KeepsHalfBytes)
    (place : Place) (value : UInt8) : (cartridge.store place value).KeepsHalfBytes := by
  intro second
  rw [kind_store] at second
  have half := keeps second
  cases place with
  | rom offset address =>
    have plain : cartridge.controller.kind ≠ .flash := by
      rw [second]
      decide
    rw [cartridge.store_rom plain]
    exact half
  | sram k =>
    intro n bound
    have inside : n < cartridge.sram.size := Nat.lt_of_lt_of_le bound half.size
    have before := half n bound
    rw [Array.getD_eq_getD_getElem?] at before ⊢
    show ((cartridge.sram.setIfInBounds k _)[n]?).getD 0x00 &&& 0xF0 = 0xF0
    rw [Array.getElem?_setIfInBounds]
    split
    next reached =>
      subst reached
      rw [if_pos inside, cartridge.controller.sramOnes_eq, if_pos second]
      exact or_and_self value 0xF0
    next => exact before
  | _ => exact half

/-- Installing a controller keeps the RAM there is and appends zeros up to what the controller
asks for. -/
theorem install_sram (cartridge : Cartridge) (controller : Controller) :
    (cartridge.install controller).sram =
      cartridge.sram ++ Array.replicate (controller.leastSram - cartridge.sram.size) 0 := rfl

/-- On a board that comes to have the second controller a byte of RAM shows whether the board
had half-bytes before. -/
theorem getD_install (cartridge : Cartridge) (mbc2 : Mbc2) {n : Nat} (bound : n < Mbc2.sramSize)
    (absent : UInt8) :
    (cartridge.install (.mbc2 mbc2)).sram.getD n absent = cartridge.sram.getD n 0x00 := by
  rw [install_sram, Array.getD_eq_getD_getElem?, Array.getD_eq_getD_getElem?]
  by_cases old : n < cartridge.sram.size
  · rw [Array.getElem?_append_left old, Array.getElem?_eq_getElem old]
    rfl
  · have added : n - cartridge.sram.size < Mbc2.sramSize - cartridge.sram.size := by omega
    rw [Array.getElem?_append_right (Nat.not_lt.mp old), Array.getElem?_eq_none (Nat.not_lt.mp old)]
    simp [Controller.leastSram, added]

/-- Installing a controller keeps half bytes if the board holds them wherever it gets a second
controller. -/
theorem keepsHalfBytes_install {cartridge : Cartridge} {controller : Controller}
    (half : ∀ mbc2, controller = .mbc2 mbc2 → cartridge.HasHalfBytes) :
    (cartridge.install controller).KeepsHalfBytes := by
  intro second n bound
  obtain ⟨mbc2, rfl⟩ := Controller.eq_of_kind second
  rw [getD_install _ _ bound]
  exact half mbc2 rfl n bound

end Cartridge

namespace Hardware

/-- Only stores reach a cartridge. -/
theorem lasting_of_cartridge {Q : Cartridge → Prop}
    (store : ∀ {cartridge}, Q cartridge → ∀ place value, Q (cartridge.store place value)) :
    Lasting fun hw => Q hw.cartridge where
  store := by
    intro hw h place value
    rw [hw.store_cartridge]
    exact store h place value
  sync := by
    intro hw h now
    exact h
  requests := by
    intro hw h value
    exact h
  speed := by
    intro hw h value
    exact h
  update := by
    intro hw h now speed
    rwa [(hw.caughtUp_update now speed).cartridge]
  hear := by
    intro hw h
    exact h

/-- What the RAM window of an open second controller shows: its 512 bytes over and over. -/
theorem read_second {hw : Hardware} {mbc2 : Mbc2} (second : hw.cartridge.controller = .mbc2 mbc2)
    (opened : mbc2.sramEnabled = true) (large : Mbc2.sramSize ≤ hw.cartridge.sram.size)
    {address : UInt16} (window : 0xA000 ≤ address ∧ address < 0xC000) :
    AddressSpace.read hw address =
      hw.cartridge.sram.getD ((address - 0xA000).toNat % Mbc2.sramSize) 0xFF := by
  have inside : (address - 0xA000).toNat % Mbc2.sramSize < hw.cartridge.sram.size :=
    Nat.lt_of_lt_of_le (Nat.mod_lt _ (by decide)) large
  have some : hw.cartridge.sram.size ≠ 0 := Nat.ne_zero_of_lt inside
  have place : hw.resolve address = .sram ((address - 0xA000).toNat % Mbc2.sramSize) := by
    rw [hw.resolve_sram window, Cartridge.sramPlace, second]
    simp only [Controller.sramEnabled, opened, if_true, Controller.mapSram, Mbc2.mapSram,
      if_neg some, Nat.mod_eq_of_lt inside]
  rw [read_of_resolve place, Array.getD_eq_getD_getElem?]
  rfl

end Hardware

namespace Machine

open Hardware

/-! ## Machines that can be reached -/

/-- A cartridge as a board maker puts it together. -/
def IsBuilt (cartridge : Cartridge) : Prop :=
  (∃ image, Cartridge.ofImage image = .ok cartridge) ∨
    (∃ image controller, Cartridge.withController image controller = .ok cartridge) ∨
      cartridge = .empty

/-- The machines that can be reached from new ones, where a controller is only put on a board
if that is allowed. A cartridge that is put in was built for another machine, or has been
in one. -/
inductive Reached (allowed : Cartridge → Controller → Prop) : Machine → Prop
  | assemble {cartridge : Cartridge} (built : IsBuilt cartridge) (boot : Array UInt8) :
    Reached allowed (.assemble cartridge boot)
  | reset {m : Machine} (before : Reached allowed m) : Reached allowed m.reset
  | perform {m : Machine} (before : Reached allowed m) (request : Request)
    (plain : request.renews = false) : Reached allowed (m.perform request).1
  | swap {m other : Machine} (before : Reached allowed m) (source : Reached allowed other)
    (notes : CartridgeNotes) : Reached allowed (m.swap other.bus.cartridge notes).1
  | install {m : Machine} (before : Reached allowed m) (controller : Controller)
    (permitted : allowed m.bus.cartridge controller) : Reached allowed (m.install controller)

/-- Whenever the second controller is active and its RAM is open, every read in the RAM
window has its upper four bits set. -/
def ReadsHalfBytes (m : Machine) : Prop :=
  m.bus.cartridge.controller.kind = .mbc2 → m.bus.cartridge.controller.sramEnabled = true →
    ∀ address, 0xA000 ≤ address → address < 0xC000 → m.read address &&& 0xF0 = 0xF0

variable {allowed : Cartridge → Controller → Prop} {m : Machine}

/-- What holds of new boards and survives every store and every other controller, holds of the
board of every machine that can be reached. -/
theorem Reached.cartridge {Q : Cartridge → Prop}
    (new : ∀ header image controller, Q (.assemble header image controller))
    (store : ∀ {cartridge}, Q cartridge → ∀ place value, Q (cartridge.store place value))
    (install : ∀ {m controller}, Reached allowed m → allowed m.bus.cartridge controller →
      Q (m.bus.cartridge.install controller))
    (reached : Reached allowed m) : Q m.bus.cartridge := by
  induction reached with
  | assemble built boot =>
    obtain ⟨image, made⟩ | ⟨image, controller, made⟩ | rfl := built
    · obtain ⟨header, rfl⟩ := Cartridge.built_of_parse made
      exact new _ _ _
    · obtain ⟨header, rfl⟩ := Cartridge.built_of_parse made
      exact new _ _ _
    · exact new _ _ _
  | @reset m before ih =>
    rw [m.reset_keeps.1]
    exact ih
  | @perform m before request plain ih =>
    apply perform_of_lasting (lasting_of_cartridge store) ih
    intro renews
    rw [plain] at renews
    contradiction
  | swap before source notes ihBefore ihSource => exact ihSource
  | install before controller permitted ih => exact install before permitted

/-- If the second controller is only put on boards with half-bytes, every board with the second
controller has half-bytes. -/
theorem Reached.keepsHalfBytes
    (careful : ∀ m mbc2, Reached allowed m → allowed m.bus.cartridge (.mbc2 mbc2) →
      m.bus.cartridge.HasHalfBytes)
    (reached : Reached allowed m) : m.bus.cartridge.KeepsHalfBytes := by
  refine reached.cartridge Cartridge.keepsHalfBytes_assemble Cartridge.keepsHalfBytes_store ?_
  intro m controller before permitted
  apply Cartridge.keepsHalfBytes_install
  rintro mbc2 rfl
  exact careful m mbc2 before permitted

/-- A machine whose board keeps half bytes reads them back. -/
theorem readsHalfBytes_of_keepsHalfBytes (keeps : m.bus.cartridge.KeepsHalfBytes) :
    m.ReadsHalfBytes := by
  intro second opened address above below
  have half := keeps second
  obtain ⟨mbc2, controller⟩ := Controller.eq_of_kind second
  rw [controller] at opened
  have bound : (address - 0xA000).toNat % Mbc2.sramSize < Mbc2.sramSize :=
    Nat.mod_lt _ (by decide)
  have inside := Nat.lt_of_lt_of_le bound half.size
  have shown := half _ bound
  show m.load (m.resolve address) &&& 0xF0 = 0xF0
  rw [m.load_resolve, read_second controller opened half.size ⟨above, below⟩]
  rw [Array.getD_eq_getD_getElem?, Array.getElem?_eq_getElem inside] at shown ⊢
  exact shown

/-! ## Another controller on the board -/

/-- The machine with the second controller put on its board and the RAM opened by a write that
no boot image covers. -/
def withSecond (m : Machine) (mbc2 : Mbc2) : Machine :=
  (m.install (.mbc2 mbc2)).writeAt 0x1000 0x0A

/-- The board then has the second controller with its RAM open, and the RAM of an installation. -/
theorem withSecond_cartridge (m : Machine) (mbc2 : Mbc2) :
    (m.withSecond mbc2).bus.cartridge =
      { m.bus.cartridge.install (.mbc2 mbc2) with
        controller := .mbc2 { mbc2 with sramEnabled := true } } := by
  have bare : (m.install (.mbc2 mbc2)).bus.bootAnswers 0x1000 = false := by simp [bootAnswers]
  have plain : (m.install (.mbc2 mbc2)).bus.cartridge.controller.kind ≠ .flash := by
    show ControllerKind.mbc2 ≠ .flash
    decide
  have below : (0x1000 : UInt16) < 0x8000 := by decide
  have taken := @take_rom_area (m.install (.mbc2 mbc2)).bus ⟨0x1000, 0x0A⟩ below bare plain
  rw [withSecond, (m.install (.mbc2 mbc2)).writeAt_bus ⟨0x1000, 0x0A⟩, taken.2]
  rfl

/-- The first 512 addresses of the RAM window show the 512 bytes in turn. -/
theorem window_of_index {n : Nat} (bound : n < Mbc2.sramSize) :
    let address := 0xA000 + UInt16.ofNat n
    (0xA000 ≤ address ∧ address < 0xC000) ∧ (address - 0xA000).toNat % Mbc2.sramSize = n := by
  intro address
  have small : n < 0x200 := bound
  have value : address.toNat = 0xA000 + n :=
    toNat_add_ofNat 0xA000 (by show 0xA000 + n < 0x10000; omega)
  obtain ⟨above, below⟩ : 0xA000 ≤ address ∧ address < 0xC000 :=
    window_add_ofNat (by show 0xA000 + n < 0xC000; omega)
  refine ⟨⟨above, below⟩, ?_⟩
  rw [toNat_above (UInt16.not_lt.mpr above), value]
  show (0xA000 + n - 0xA000) % 0x200 = n
  omega

/-- Its reads are those of the old RAM, and zero where there was none. -/
theorem read_withSecond (m : Machine) (mbc2 : Mbc2) {n : Nat} (bound : n < Mbc2.sramSize) :
    (m.withSecond mbc2).read (0xA000 + UInt16.ofNat n) = m.bus.cartridge.sram.getD n 0x00 := by
  obtain ⟨window, offset⟩ := window_of_index bound
  have cartridge := m.withSecond_cartridge mbc2
  have large : Mbc2.sramSize ≤ (m.withSecond mbc2).bus.cartridge.sram.size := by
    rw [cartridge]
    simp only [Cartridge.install_sram, Array.size_append, Array.size_replicate,
      Controller.leastSram]
    omega
  show (m.withSecond mbc2).load ((m.withSecond mbc2).resolve _) = _
  rw [System.load_resolve, read_second (by rw [cartridge]) rfl large window, offset,
    cartridge]
  exact m.bus.cartridge.getD_install mbc2 bound 0xFF

/-- If the second controller may be installed, the machine with it is reached. -/
theorem reached_withSecond (reached : Reached allowed m) {mbc2 : Mbc2}
    (permitted : allowed m.bus.cartridge (.mbc2 mbc2)) :
    Reached allowed (m.withSecond mbc2) :=
  (reached.install _ permitted).perform (.write 0x1000 0x0A) rfl

/-- The reads of an open second controller have their upper halves set in every machine that can
be reached, exactly if the second controller is only ever put on boards with half-bytes. -/
theorem reads_half_bytes_iff (allowed : Cartridge → Controller → Prop) :
    (∀ m, Reached allowed m → m.ReadsHalfBytes) ↔
      ∀ m mbc2, Reached allowed m → allowed m.bus.cartridge (.mbc2 mbc2) →
        m.bus.cartridge.HasHalfBytes := by
  constructor
  · intro reads m mbc2 reached permitted n bound
    obtain ⟨⟨above, below⟩, -⟩ := window_of_index bound
    have later := reads (m.withSecond mbc2) (reached_withSecond reached permitted)
    rw [← m.read_withSecond mbc2 bound]
    apply later
    · rw [m.withSecond_cartridge]
      rfl
    · rw [m.withSecond_cartridge]
      rfl
    · exact above
    · exact below
  · intro careful m reached
    exact readsHalfBytes_of_keepsHalfBytes (reached.keepsHalfBytes careful)

/-- An image of zeros has a header that names no controller and no RAM. -/
theorem parse_zeros :
    ∃ header, Header.parse (Array.replicate 0x8000 0) = .ok header ∧ header.cartridgeType = 0 ∧
      header.ramSize = 0 := by
  have whole : Header.leastImage ≤ (Array.replicate 0x8000 (0 : UInt8)).size := by
    simp [Header.leastImage]
  obtain ⟨header, parsed, type, ram⟩ := Header.parse_of_whole whole
  refine ⟨header, parsed, ?_, ?_⟩
  · simp [type]
  · simp [ram]

/-- An image of zeros asks for no controller and no RAM. -/
theorem ofImage_zeros :
    ∃ cartridge, Cartridge.ofImage (Array.replicate 0x8000 0) = .ok cartridge ∧
      cartridge.sram = #[] := by
  obtain ⟨header, parsed, type, ram⟩ := parse_zeros
  refine ⟨_, Cartridge.ofImage_of_parse parsed, ?_⟩
  simp [Cartridge.assemble, Header.sramBytes, Header.expectedController, Controller.ofKind,
    Controller.leastSram, type, ram]

/-- On a board without RAM the second controller finds zeros. -/
theorem half_bytes_missing_on_empty_board :
    ∃ cartridge, Cartridge.ofImage (Array.replicate 0x8000 0) = .ok cartridge ∧
      let m := (Machine.assemble cartridge #[]).reset.withSecond {}
      Reached (fun _ _ => True) m ∧ m.bus.cartridge.controller.kind = .mbc2 ∧
        m.bus.cartridge.controller.sramEnabled = true ∧ m.read 0xA000 = 0x00 := by
  obtain ⟨cartridge, made, empty⟩ := ofImage_zeros
  refine ⟨cartridge, made, ?_⟩
  intro m
  have reached : Reached (fun _ _ => True) (Machine.assemble cartridge #[]).reset :=
    (Reached.assemble (.inl ⟨_, made⟩) #[]).reset
  have second := (Machine.assemble cartridge #[]).reset.withSecond_cartridge {}
  have first : (0 : Nat) < Mbc2.sramSize := by decide
  refine ⟨reached_withSecond reached trivial, ?_, ?_, ?_⟩
  · rw [second]
    rfl
  · rw [second]
    rfl
  · have shown := (Machine.assemble cartridge #[]).reset.read_withSecond {} first
    rw [(reset_keeps _).1] at shown
    refine shown.trans ?_
    show cartridge.sram.getD 0 0x00 = 0x00
    rw [empty]
    rfl

end Machine

end Handheld
