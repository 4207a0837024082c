import Handheld.Proofs.AddressDecoder
import Handheld.Proofs.CommandWindow
import Handheld.Proofs.FixedOrigins
import Handheld.Proofs.HalfBytes

/-!
# Sector reads of a flash cartridge

A program that has opened the command window reads a sector of the card with one more write, and
finds its bytes at the start of the RAM window. What comes between is the room that the board has
for them: bytes for which there is no RAM are dropped, and the window shows a small RAM over and
over. But a board has at least the RAM that its controller needs (`HasRoom`), whether it was built
with the controller or came to it later, and no request takes any away. So a sector always fits,
and the window shows it as it is (`SectorArrived`).
-/

set_option autoImplicit false

namespace Handheld

/-! ## Room for a sector -/

/-- No write changes how much RAM a controller asks for. -/
theorem Controller.leastSram_write (controller : Controller) (address : UInt16) (value : UInt8) :
    (controller.write address value).leastSram = controller.leastSram := by
  cases controller <;> rfl

namespace Cartridge

/-- The RAM of a board is as large as its controller needs. -/
def HasRoom (cartridge : Cartridge) : Prop := cartridge.controller.leastSram ≤ cartridge.sram.size

/-- A board that is built has the RAM that its controller asks for. -/
theorem hasRoom_assemble (header : Header) (image : Array UInt8) (controller : Controller) :
    (assemble header image controller).HasRoom := by
  show controller.leastSram ≤ (Array.replicate _ _).size
  rw [Array.size_replicate]
  exact Nat.le_max_right _ _

/-- RAM grows with the controller. -/
theorem hasRoom_install (cartridge : Cartridge) (controller : Controller) :
    (cartridge.install controller).HasRoom := by
  show controller.leastSram ≤ (cartridge.install controller).sram.size
  rw [install_sram, Array.size_append, Array.size_replicate]
  omega

/-- A controller hears of the stores to the ROM area only. -/
theorem store_controller (cartridge : Cartridge) (place : Place) (value : UInt8) :
    (cartridge.store place value).controller =
      match place with
      | .rom _ address => cartridge.controller.write address value
      | _ => cartridge.controller := by
  cases place with
  | rom offset address =>
    show (obey _ (cartridge.controller.command address value)).controller = _
    unfold obey
    split <;> rfl
  | _ => rfl

/-- A store leaves room on the board. -/
theorem hasRoom_store {cartridge : Cartridge} (room : cartridge.HasRoom) (place : Place)
    (value : UInt8) : (cartridge.store place value).HasRoom := by
  have needs : (cartridge.store place value).controller.leastSram =
      cartridge.controller.leastSram := by
    rw [store_controller]
    split
    · exact Controller.leastSram_write _ _ _
    · rfl
  unfold HasRoom
  rw [needs, Hardware.size_sram_store]
  exact room

end Cartridge

namespace Machine

variable {allowed : Cartridge → Controller → Prop} {m : Machine}

/-- Whatever a machine has been through, its board has the RAM that its controller needs. -/
theorem Reached.hasRoom (reached : Reached allowed m) : m.bus.cartridge.HasRoom :=
  reached.cartridge Cartridge.hasRoom_assemble Cartridge.hasRoom_store
    fun _ _ => Cartridge.hasRoom_install _ _

/-- Writes lead from one machine that is reached to another. -/
theorem Reached.writeAll (reached : Reached allowed m) (writes : List BusWrite) :
    Reached allowed (m.writeAll writes) := by
  induction writes generalizing m with
  | nil => exact reached
  | cons write later ih => exact ih (reached.perform (.write write.address write.value) rfl)

end Machine

/-! ## The bytes and their origins -/

/-- Bytes are put where there is room for them. -/
theorem Cartridge.getElem?_overwrite (target : Array UInt8) (offset : Nat) (bytes : List UInt8)
    (n : Nat) :
    (overwrite target offset bytes)[n]? =
      if offset ≤ n ∧ n < offset + bytes.length ∧ n < target.size then bytes[n - offset]?
      else target[n]? := by
  induction bytes generalizing target offset with
  | nil =>
    rw [overwrite, if_neg]
    simp only [List.length_nil]
    omega
  | cons value bytes ih =>
    rw [overwrite, ih, Array.size_setIfInBounds, Array.getElem?_setIfInBounds]
    by_cases first : n = offset
    · subst first
      by_cases inside : n < target.size
      · simp [inside]
      · simp [inside]
    · have shift : offset < n → (value :: bytes)[n - offset]? = bytes[n - (offset + 1)]? := by
        intro past
        rw [show n - offset = n - (offset + 1) + 1 by omega, List.getElem?_cons_succ]
      have apart : ¬ offset = n := fun same => first same.symm
      simp only [if_neg apart, List.length_cons]
      by_cases past : offset < n
      · rw [shift past]
        congr 1
        rw [eq_iff_iff]
        omega
      · rw [if_neg (by omega), if_neg (by omega)]

/-- Origins are forgotten where bytes are put. -/
theorem Hardware.origin_clearSram_sram (size offset count : Nat) (ledger : Ledger) (n : Nat) :
    ((clearSram size offset count ledger).note (.sram n)).origin =
      if offset ≤ n ∧ n < offset + count ∧ n < size then none
      else (ledger.note (.sram n)).origin := by
  induction count generalizing offset ledger with
  | zero =>
    rw [clearSram, if_neg]
    omega
  | succ count ih =>
    unfold clearSram
    split
    next inside =>
      have cleared : Place.sram offset ≠ .openBus ∧ (Place.sram n).home = (Place.sram offset).home ↔
          n = offset := by
        simp [Place.home]
      rw [ih, Ledger.origin_clearOrigin]
      simp only [cleared]
      grind
    next outside =>
      rw [if_neg]
      omega

namespace FlashCart

/-- A sector has 512 bytes. -/
theorem length_sectorBytes (cart : FlashCart) : cart.sectorBytes.length = 512 := by
  simp [sectorBytes, sectorSize]

/-- The bytes of a sector, by position, all ones past the end of the image. -/
theorem getElem?_sectorBytes (cart : FlashCart) {i : Nat} (inside : i < 512) :
    cart.sectorBytes[i]? = some (cart.image.getD (cart.sector.toNat * 512 + i) 0xFF) := by
  simp [sectorBytes, sectorSize, inside]

end FlashCart

/-! ## The command -/

namespace Hardware

variable {hw : Hardware} {cart : FlashCart}

/-- The hardware with a sector in its cartridge RAM. -/
def withSector (hw : Hardware) (cart : FlashCart) : Hardware :=
  { hw with
    cartridge :=
      { hw.cartridge with sram := Cartridge.overwrite hw.cartridge.sram 0 cart.sectorBytes } }

/-- A sector that arrives leaves the controller alone. -/
theorem withSector_controller :
    (hw.withSector cart).cartridge.controller = hw.cartridge.controller := by
  unfold withSector
  rfl

/-- A sector that arrives leaves room on the board. -/
theorem hasRoom_withSector (room : hw.cartridge.HasRoom) :
    (hw.withSector cart).cartridge.HasRoom := by
  unfold Cartridge.HasRoom withSector at *
  rwa [size_overwrite]

/-- Above its first pages a boot image covers nothing. -/
theorem resolve_above_boot (hw : Hardware) {address : UInt16}
    (window : 0x0900 ≤ address ∧ address < 0x8000) :
    hw.resolve address = hw.cartridge.romPlace address := by
  grind [resolve, bootAnswers]

/-- The command byte asks for the bytes of the sector. -/
theorem command_sector (flash : hw.cartridge.controller = .flash cart)
    (opened : cart.unlocked = true) :
    hw.cartridge.command (hw.cartridge.romPlace 0x7F30) 1 =
      some (.fillSram 0 cart.sectorBytes) := by
  show hw.cartridge.controller.command 0x7F30 1 = _
  rw [flash]
  simp [Controller.command, FlashCart.command, opened]

/-- The board takes the sector, and the controller is what it was. -/
theorem store_sector (flash : hw.cartridge.controller = .flash cart)
    (opened : cart.unlocked = true) :
    hw.store (hw.resolve 0x7F30) 1 = hw.withSector cart := by
  have asked := command_sector flash opened
  have stays : hw.cartridge.controller.write 0x7F30 1 = hw.cartridge.controller := by
    rw [flash]
    simp [Controller.write, FlashCart.write]
  have board : hw.cartridge.store (hw.cartridge.romPlace 0x7F30) 1 =
      (hw.withSector cart).cartridge := by
    show Cartridge.obey
      { hw.cartridge with controller := hw.cartridge.controller.write 0x7F30 1 }
      (hw.cartridge.command (hw.cartridge.romPlace 0x7F30) 1) = _
    rw [asked, stays]
    rfl
  have quiet : (hw.cartridge.command (hw.cartridge.romPlace 0x7F30) 1 == some .reboot) =
      false := by
    rw [asked]
    rfl
  rw [hw.resolve_above_boot (by decide)]
  show hw.storeCartridge (hw.cartridge.romPlace 0x7F30) 1 = _
  rw [storeCartridge, board, quiet, Bool.or_false]
  rfl

/-- The origins of as many bytes are forgotten. -/
theorem trail_sector (flash : hw.cartridge.controller = .flash cart)
    (opened : cart.unlocked = true) (ledger : Ledger) :
    hw.trail (hw.resolve 0x7F30) 1 ledger = clearSram hw.cartridge.sram.size 0 512 ledger := by
  have asked := command_sector flash opened
  rw [hw.resolve_above_boot (by decide)]
  unfold Cartridge.romPlace at asked ⊢
  simp only [trail, asked, cart.length_sectorBytes]

/-- The RAM window of a flash cartridge shows the RAM as it is. -/
theorem resolve_flash_window (flash : hw.cartridge.controller = .flash cart)
    (room : hw.cartridge.HasRoom) {i : Nat} (inside : i < 0x2000) :
    hw.resolve (0xA000 + UInt16.ofNat i) = .sram i := by
  have address : (0xA000 + UInt16.ofNat i).toNat = 0xA000 + i :=
    toNat_add_ofNat 0xA000 (by show 0xA000 + i < 0x10000; omega)
  have window : 0xA000 ≤ 0xA000 + UInt16.ofNat i ∧ 0xA000 + UInt16.ofNat i < 0xC000 :=
    window_add_ofNat (Nat.add_lt_add_left inside _)
  have fits : i < hw.cartridge.sram.size := by
    unfold Cartridge.HasRoom at room
    rw [flash] at room
    exact Nat.lt_of_lt_of_le inside room
  have offset : (0xA000 + UInt16.ofNat i - 0xA000).toNat = i := by
    rw [toNat_above (UInt16.not_lt.mpr window.1), address]
    exact Nat.add_sub_cancel_left _ _
  rw [hw.resolve_sram window, Cartridge.sramPlace, flash]
  simp only [Controller.sramEnabled, Controller.mapSram, if_true, offset,
    if_neg (Nat.ne_zero_of_lt fits), Nat.mod_eq_of_lt fits]

end Hardware

namespace System

open Hardware

/-- What has become of a machine when a sector has arrived. -/
structure SectorArrived (image : Array UInt8) (sector : Nat) (s next : System Hardware) : Prop where
  shown : ∀ i < 512, AddressSpace.read next.bus (0xA000 + UInt16.ofNat i) =
    image.getD (sector * 512 + i) 0xFF
  rest : ∀ n, 512 ≤ n → next.bus.cartridge.sram[n]? = s.bus.cartridge.sram[n]?
  only : next.bus =
    { s.bus with cartridge := { s.bus.cartridge with sram := next.bus.cartridge.sram } }
  cleared : ∀ n < 512, next.origin? (.sram n) = none
  kept : ∀ n, 512 ≤ n → next.origin? (.sram n) = s.origin? (.sram n)

variable {s : System Hardware} {cart : FlashCart}

/-- Once the byte is stored the sector has arrived, whatever is booked on the ROM byte that was
written: it fits, and it is shown where it lies. -/
theorem sectorArrived_of_stored {next : System Hardware}
    (flash : s.bus.cartridge.controller = .flash cart) (opened : cart.unlocked = true)
    (room : s.bus.cartridge.HasRoom) (bus : next.bus = (s.store (s.resolve 0x7F30) 1).bus)
    (origins : ∀ n, (next.ledger.note (.sram n)).origin =
      ((s.store (s.resolve 0x7F30) 1).ledger.note (.sram n)).origin) :
    SectorArrived cart.image cart.sector.toNat s next := by
  have least : 0x2000 ≤ s.bus.cartridge.sram.size := by
    unfold Cartridge.HasRoom at room
    rwa [flash] at room
  have length := cart.length_sectorBytes
  have stored : s.store (s.resolve 0x7F30) 1 = _ :=
    s.store_place (s.bus.resolve_ne_register 0x7F30) 1
  have filled : next.bus = s.bus.withSector cart := by
    rw [bus, stored]
    exact store_sector flash opened
  -- Bytes and origins change at the first 512 places, and nowhere else.
  have bytes (n : Nat) : next.bus.cartridge.sram[n]? =
      if n < 512 then cart.sectorBytes[n]? else s.bus.cartridge.sram[n]? := by
    have within : (0 ≤ n ∧ n < 0 + cart.sectorBytes.length ∧ n < s.bus.cartridge.sram.size) ↔
        n < 512 := by omega
    rw [filled, withSector]
    simp only [Cartridge.getElem?_overwrite, within, Nat.sub_zero]
  have forgotten (n : Nat) : (next.ledger.note (.sram n)).origin =
      if n < 512 then none else (s.ledger.note (.sram n)).origin := by
    have within : (0 ≤ n ∧ n < 0 + 512 ∧ n < s.bus.cartridge.sram.size) ↔ n < 512 := by omega
    have ledger : (s.store (s.resolve 0x7F30) 1).ledger =
        clearSram s.bus.cartridge.sram.size 0 512 s.ledger := by
      rw [stored]
      exact trail_sector flash opened s.ledger
    rw [origins, ledger, origin_clearSram_sram]
    simp only [within]
  constructor
  · intro i inside
    have place : next.bus.resolve (0xA000 + UInt16.ofNat i) = .sram i := by
      rw [filled]
      exact resolve_flash_window (withSector_controller.trans flash) (hasRoom_withSector room)
        (by omega)
    rw [read_of_resolve place]
    show (next.bus.cartridge.sram[i]?).getD 0xFF = _
    rw [bytes, if_pos inside, cart.getElem?_sectorBytes inside, Option.getD_some]
  · intro n past
    rw [bytes, if_neg (Nat.not_lt.mpr past)]
  · rw [filled]
    dsimp only [withSector]
  · intro n inside
    unfold origin? Ledger.origin?
    rw [forgotten, if_pos inside, ite_self]
  · intro n past
    have same : present next.bus (.sram n) = present s.bus (.sram n) := by
      show (next.bus.cartridge.sram[n]?).isSome = (s.bus.cartridge.sram[n]?).isSome
      rw [bytes, if_neg (Nat.not_lt.mpr past)]
    unfold origin? Ledger.origin?
    rw [same, forgotten, if_neg (Nat.not_lt.mpr past)]

/-- The byte that is written is no byte of RAM. -/
theorem place_ne_sram (s : System Hardware) (n : Nat) :
    (Place.sram n).home ≠ (s.resolve 0x7F30).home := by
  have place : s.resolve 0x7F30 = s.bus.cartridge.romPlace 0x7F30 :=
    s.bus.resolve_above_boot (show 0x0900 ≤ 0x7F30 ∧ 0x7F30 < 0x8000 by decide)
  rw [place]
  intro same
  cases same

/-- A write of the command byte brings in the sector. -/
theorem sectorArrived_write (flash : s.bus.cartridge.controller = .flash cart)
    (opened : cart.unlocked = true) (room : s.bus.cartridge.HasRoom) :
    SectorArrived cart.image cart.sector.toNat s (s.write (s.resolve 0x7F30) 1) := by
  refine sectorArrived_of_stored flash opened room (s.write_bus _ _) ?_
  intro n
  have apart := place_ne_sram s n
  rw [write, clearOrigin_eq]
  dsimp only
  split
  · rw [Ledger.origin_clearOrigin, if_neg fun both => apart both.2]
  · rfl

/-- A move of the command byte brings in the sector. -/
theorem sectorArrived_move (flash : s.bus.cartridge.controller = .flash cart)
    (opened : cart.unlocked = true) (room : s.bus.cartridge.HasRoom) {source : Place}
    (one : s.load source = 1) :
    SectorArrived cart.image cart.sector.toNat s (s.move (s.resolve 0x7F30) source) := by
  apply sectorArrived_of_stored flash opened room
  · rw [move_bus, one]
  · intro n
    rw [← one]
    exact Ledger.origin_link_of_ne _ _ _ (place_ne_sram s n)

end System

/-! ## The writes that lead there -/

namespace FlashCart

/-- The number of the sector that is selected after some writes: each of its four bytes is the one
last written to its address while the window was open. -/
def selectedSector (cart : FlashCart) (writes : List BusWrite) : Nat :=
  Nat.ofDigits 256 ([0, 1, 2, 3].map fun k =>
    ((lastWritten take sectorByteAt? k cart writes).getD (byteOf cart.sector k)).toNat)

/-- After any writes the sector is the one that they select. -/
theorem sector_foldl_take (cart : FlashCart) (writes : List BusWrite) :
    (writes.foldl take cart).sector.toNat = cart.selectedSector writes := by
  have allowed : ∀ write ∈ writes, True := fun _ _ => trivial
  have each : ∀ {here there : FlashCart} (write : BusWrite), here = there → True →
      here.take write = there.take write ∧
        ∀ k, byteOf (there.take write).sector k =
          if here.sectorByteAt? write.address = some k then id write.value
          else byteOf there.sector k := by
    rintro here _ write rfl -
    exact ⟨rfl, here.byteOf_take write⟩
  obtain ⟨-, last⟩ := shown_foldl (fun (cart : FlashCart) => byteOf cart.sector) id each writes
    allowed (rfl : cart = cart)
  rw [toNat_eq_ofDigits, selectedSector]
  simp only [last, Option.map_id_fun, id]

/-- A byte of the sector number is written while the window is open, which it stays. -/
theorem take_sectorByte {cart : FlashCart} (opened : cart.unlocked = true) {k : Nat} (bound : k < 4)
    (value : UInt8) :
    (cart.take ⟨0x7FB0 + UInt16.ofNat k, value⟩).unlocked = true ∧
      ∀ j, byteOf (cart.take ⟨0x7FB0 + UInt16.ofNat k, value⟩).sector j =
        if k = j then value else byteOf cart.sector j := by
  have address : (0x7FB0 + UInt16.ofNat k).toNat = 0x7FB0 + k :=
    toNat_add_ofNat 0x7FB0 (by show 0x7FB0 + k < 0x10000; omega)
  have window : 0x7FB0 ≤ 0x7FB0 + UInt16.ofNat k ∧ 0x7FB0 + UInt16.ofNat k ≤ 0x7FB3 := by
    rw [UInt16.le_iff_toNat_le, UInt16.le_iff_toNat_le, address]
    exact ⟨Nat.le_add_right _ _, Nat.add_le_add_left (Nat.le_of_lt_succ bound) _⟩
  have unheard : reachesLock ⟨0x7FB0 + UInt16.ofNat k, value⟩ = false := by
    unfold reachesLock
    grind
  constructor
  · unfold unlocked at *
    rwa [take_lock_of_not_reaches cart unheard]
  · intro j
    have found : cart.sectorByteAt? (0x7FB0 + UInt16.ofNat k) = some k := by
      rw [sectorByteAt?, if_pos ⟨opened, window⟩, address, Nat.add_sub_cancel_left]
    rw [byteOf_take, found]
    simp only [Option.some.injEq]

/-- While the window is open every sector can be selected. -/
theorem selectedSector_select {cart : FlashCart} {writes : List BusWrite}
    (opened : (writes.foldl take cart).unlocked = true) (sector : UInt32) :
    cart.selectedSector (writes ++ [0, 1, 2, 3].map fun k =>
      ⟨0x7FB0 + UInt16.ofNat k, byteOf sector k⟩) = sector.toNat := by
  rw [← sector_foldl_take, List.foldl_append]
  generalize writes.foldl take cart = cart at opened
  obtain ⟨first, byte0⟩ := take_sectorByte opened (show 0 < 4 by decide) (byteOf sector 0)
  obtain ⟨second, byte1⟩ := take_sectorByte first (show 1 < 4 by decide) (byteOf sector 1)
  obtain ⟨third, byte2⟩ := take_sectorByte second (show 2 < 4 by decide) (byteOf sector 2)
  obtain ⟨-, byte3⟩ := take_sectorByte third (show 3 < 4 by decide) (byteOf sector 3)
  rw [toNat_eq_ofDigits, toNat_eq_ofDigits sector]
  simp only [List.map_cons, List.map_nil, List.foldl_cons, List.foldl_nil, byte0, byte1, byte2,
    byte3]
  rfl

/-- No write changes the image of the card. -/
theorem image_take (cart : FlashCart) (write : BusWrite) :
    (cart.take write).image = cart.image := by
  unfold take FlashCart.write
  grind

/-- No writes change the image of the card. -/
theorem image_foldl_take (cart : FlashCart) (writes : List BusWrite) :
    (writes.foldl take cart).image = cart.image := by
  induction writes generalizing cart with
  | nil => rfl
  | cons write later ih => rw [List.foldl_cons, ih, image_take]

/-- All registers lie in the part of the ROM area that no boot image covers. -/
theorem take_elsewhere (cart : FlashCart) {write : BusWrite}
    (elsewhere : ¬ (0x0900 ≤ write.address ∧ write.address < 0x8000)) :
    cart.take write = cart := by
  unfold take FlashCart.write
  grind

end FlashCart

namespace Hardware

/-- The controller of a flash cartridge hears of every write that is for it. -/
theorem take_flash {hw : Hardware} {cart : FlashCart}
    (flash : hw.cartridge.controller = .flash cart) (write : BusWrite) :
    (hw.take write).cartridge.controller = .flash (cart.take write) := by
  have heard : (hw.take write).cartridge.controller = _ :=
    (congrArg Cartridge.controller (hw.store_cartridge _ _)).trans
      (hw.cartridge.store_controller (hw.resolve write.address) write.value)
  rw [heard, flash]
  split
  next offset seen found =>
    obtain rfl := (rom_of_resolve found).2
    rfl
  next other =>
    rw [cart.take_elsewhere]
    intro window
    exact other _ _ (hw.resolve_above_boot window)

/-- A flash cartridge hears of all writes, one after the other. -/
theorem foldl_take_flash {hw : Hardware} {cart : FlashCart}
    (flash : hw.cartridge.controller = .flash cart) (writes : List BusWrite) :
    (writes.foldl take hw).cartridge.controller = .flash (writes.foldl FlashCart.take cart) := by
  induction writes generalizing hw cart with
  | nil => exact flash
  | cons write later ih => exact ih (hw.take_flash flash write)

end Hardware

namespace Machine

/-- Whatever a machine with a flash cartridge has been through, and whatever is then written to it,
its board has room for the program on the cartridge, whatever the header says. If the command window
is open then, one more write brings the sector selected, and every sector can be selected. The first
512 addresses of the RAM window show the bytes of the card, and ones past its end. RAM beyond them
is what it was, and so are the ROM, the controller and everything else. The bytes of RAM that have
lost their origins are those of the sector. It makes no difference whether the byte that asks for it
comes from outside or is moved there by the program. -/
theorem sector_reads {m : Machine} (reached : Reached (fun _ _ => True) m) {cart : FlashCart}
    (flash : m.bus.cartridge.controller = .flash cart) (writes : List BusWrite) :
    let selected := m.writeAll writes
    let sector := cart.selectedSector writes
    0x2000 ≤ selected.bus.cartridge.sram.size ∧
      selected.bus.cartridge.controller = .flash (writes.foldl FlashCart.take cart) ∧
      ((writes.foldl FlashCart.take cart).unlocked = true →
        System.SectorArrived cart.image sector selected.toSystem
            (selected.writeAt 0x7F30 1).toSystem ∧
          (∀ source, selected.load source = 1 →
            System.SectorArrived cart.image sector selected.toSystem
              (selected.toSystem.move (selected.resolve 0x7F30) source)) ∧
          ∀ number : UInt32,
            cart.selectedSector (writes ++ [0, 1, 2, 3].map fun k =>
              ⟨0x7FB0 + UInt16.ofNat k, FlashCart.byteOf number k⟩) = number.toNat) := by
  intro selected sector
  have room : selected.bus.cartridge.HasRoom := (reached.writeAll writes).hasRoom
  have here : selected.bus.cartridge.controller = .flash (writes.foldl FlashCart.take cart) := by
    rw [m.writeAll_bus]
    exact Hardware.foldl_take_flash flash writes
  refine ⟨?_, here, fun opened => ⟨?_, ?_, FlashCart.selectedSector_select opened⟩⟩
  · unfold Cartridge.HasRoom at room
    rw [here] at room
    exact room
  · have arrived := System.sectorArrived_write here opened room
    rw [cart.image_foldl_take, cart.sector_foldl_take] at arrived
    exact arrived
  · intro source one
    have arrived := System.sectorArrived_move here opened room one
    rw [cart.image_foldl_take, cart.sector_foldl_take] at arrived
    exact arrived

/-- A flash cartridge put on the board of an empty one; its card has one byte more than a
sector. -/
def withCard : Machine :=
  (assemble .empty #[]).install (.flash { image := (Array.replicate 512 0x00).push 0x42 })

/-- The second sector has one byte of the card, and ones after it. -/
theorem sector_reads_of_withCard :
    let m := withCard
    let writes := FlashCart.keys ++ [⟨0x7FB0, 0x01⟩]
    let next := (m.writeAll writes).writeAt 0x7F30 1
    Reached (fun _ _ => True) m ∧ AddressSpace.read next.bus 0xA000 = 0x42 ∧
      AddressSpace.read next.bus 0xA1FF = 0xFF ∧ next.origin? (.sram 0) = none := by
  intro m writes next
  have reached : Reached (fun _ _ => True) m :=
    (Reached.assemble (.inr (.inr rfl)) #[]).install _ trivial
  obtain ⟨-, -, shows⟩ := sector_reads reached rfl writes
  obtain ⟨arrived, -⟩ := shows (by decide)
  have second : FlashCart.selectedSector { image := (Array.replicate 512 0x00).push 0x42 } writes =
      1 := by decide
  rw [second] at arrived
  refine ⟨reached, ?_, ?_, arrived.cleared 0 (by decide)⟩
  · exact (arrived.shown 0 (by decide)).trans (by simp [Array.getElem_push])
  · exact (arrived.shown 511 (by decide)).trans (by simp)

end Machine

end Handheld
