import Handheld.Proofs.Writes

/-!
# Cartridge RAM

Cartridge RAM and the clock registers are seen through one window. The controller says
whether the window is open and which byte an address in it stands for, and writes to the
ROM area tell the controller what to say; the memories themselves they leave alone. So a
byte keeps what was last written to it while the window was open and showed it, whatever
was written to the window in between while it was shut or showed something else.
-/

set_option autoImplicit false

namespace Handheld

/-! ## Controllers -/

namespace Controller

/-- The byte of the board that an address of the RAM window stands for, if the window is open
and there is such a byte. A small RAM repeats through the banks. -/
def slot? (controller : Controller) (size : Nat) (address : UInt16) : Option SramSlot :=
  if 0xA000 ≤ address ∧ address < 0xC000 ∧ controller.sramEnabled then
    match controller.mapSram (address - 0xA000) with
    | .clock index => some (.clock index)
    | .ram offset => if size = 0 then Option.none else some (.ram (offset % size))
  else
    Option.none

/-- A controller that is built for a kind is of that kind. -/
theorem kind_ofKind (kind : ControllerKind) : (ofKind kind).kind = kind := by
  cases kind <;> rfl

/-- No write changes the kind of a controller. -/
theorem kind_write (controller : Controller) (address : UInt16) (value : UInt8) :
    (controller.write address value).kind = controller.kind := by
  cases controller with
  | mbc3 m =>
    have clock : (m.write address value).hasClock = m.hasClock := by
      unfold Mbc3.write
      repeat' split
      all_goals rfl
    simp [write, kind, clock]
  | _ => rfl

/-- Only a flash cartridge asks anything of its board. -/
theorem command_of_kind {controller : Controller} (plain : controller.kind ≠ .flash)
    (address : UInt16) (value : UInt8) : controller.command address value = Option.none := by
  cases controller with
  | flash cart => exact absurd rfl plain
  | _ => rfl

/-- The second controller reads the upper halves of its RAM as ones, and no other controller does.
-/
theorem sramOnes_eq (controller : Controller) :
    controller.sramOnes = if controller.kind = .mbc2 then 0xF0 else 0x00 := by
  cases controller with
  | mbc3 m =>
    obtain ⟨hasClock, _, _, _⟩ := m
    cases hasClock <;> rfl
  | _ => rfl

/-- The third controller has five clock registers, and on a board with a clock only. -/
theorem clock_of_mapSram {controller : Controller} {offset : UInt16} {index : Nat}
    (found : controller.mapSram offset = .clock index) :
    index < 5 ∧ controller.kind = .mbc3Clock := by
  cases controller with
  | mbc3 m =>
    simp only [mapSram, Mbc3.mapSram] at found
    split at found
    next select =>
      cases found
      obtain ⟨clock, -, last⟩ := select
      refine ⟨by omega, ?_⟩
      simp [kind, clock]
    next => contradiction
  | _ => cases found

end Controller

/-- No header asks for a flash cartridge. -/
theorem Header.expectedController_ne_flash (header : Header) :
    header.expectedController ≠ .flash := by
  unfold expectedController
  grind

/-- An image that is large enough has a header. -/
theorem Header.parse_of_whole {image : Array UInt8} (whole : leastImage ≤ image.size) :
    ∃ header, parse image = .ok header ∧ header.cartridgeType = image.getD 0x147 0 ∧
      header.ramSize = image.getD 0x149 0 := by
  unfold parse
  rw [if_neg (Nat.not_lt.mpr whole)]
  exact ⟨_, rfl, rfl, rfl⟩

/-- Where a byte behind the RAM window is kept. -/
def SramSlot.place : SramSlot → Place
  | .ram n => .sram n
  | .clock n => .rtc n

/-- A byte that there is on a board with so much RAM and such a controller. -/
def SramSlot.Fits (size : Nat) (kind : ControllerKind) : SramSlot → Prop
  | .ram n => n < size
  | .clock n => n < 5 ∧ kind = .mbc3Clock

/-- What a controller names behind the RAM window fits the board. -/
theorem Controller.fits_of_slot? {controller : Controller} {size : Nat} {address : UInt16}
    {slot : SramSlot} (found : controller.slot? size address = some slot) :
    slot.Fits size controller.kind := by
  unfold slot? at found
  split at found
  next =>
    split at found
    next index shown =>
      cases found
      exact clock_of_mapSram shown
    next offset shown =>
      split at found
      next => contradiction
      next some =>
        cases found
        exact Nat.mod_lt _ (Nat.pos_of_ne_zero some)
  next => contradiction

namespace Cartridge

/-! ## Boards -/

variable {cartridge : Cartridge}

/-- The RAM window shows the byte that the controller names, or nothing. -/
theorem sramPlace_eq (cartridge : Cartridge) {address : UInt16}
    (window : 0xA000 ≤ address ∧ address < 0xC000) :
    cartridge.sramPlace address =
      match cartridge.controller.slot? cartridge.sram.size address with
      | some slot => slot.place
      | none => .openBus := by
  simp only [sramPlace, Controller.slot?, window, true_and]
  split
  next =>
    cases cartridge.controller.mapSram (address - 0xA000) with
    | clock index => rfl
    | ram offset =>
      dsimp only
      split <;> rfl
  next => rfl

/-- A store to the ROM writes the controller, on every board but the flash cartridge. -/
theorem store_rom (cartridge : Cartridge) (plain : cartridge.controller.kind ≠ .flash)
    (offset : Nat) (address : UInt16) (value : UInt8) :
    cartridge.store (.rom offset address) value =
      { cartridge with controller := cartridge.controller.write address value } := by
  simp only [store, Controller.command_of_kind plain]
  rfl

/-- A store behind the RAM window leaves the controller and the size of the RAM alone. -/
theorem store_slot (cartridge : Cartridge) (slot : SramSlot) (value : UInt8) :
    (cartridge.store slot.place value).controller = cartridge.controller ∧
      (cartridge.store slot.place value).sram.size = cartridge.sram.size := by
  cases slot <;> simp [store, SramSlot.place]

/-- The byte behind the RAM window, all ones if there is none. -/
def shows (cartridge : Cartridge) (slot : SramSlot) : UInt8 :=
  (cartridge.byte? slot.place).getD 0xFF

/-- A store behind the RAM window puts the byte there and nowhere else. -/
theorem shows_store {slot : SramSlot}
    (fits : slot.Fits cartridge.sram.size cartridge.controller.kind) (value : UInt8)
    (other : SramSlot) :
    (cartridge.store slot.place value).shows other =
      if slot = other then value ||| cartridge.controller.sramOnes else cartridge.shows other := by
  cases slot with
  | ram n =>
    have bound : n < cartridge.sram.size := fits
    cases other with
    | ram k =>
      simp only [shows, store, SramSlot.place, byte?, Array.getElem?_setIfInBounds]
      by_cases same : n = k
      · subst same
        simp [bound]
      · simp [same]
    | clock k => rfl
  | clock n =>
    obtain ⟨bound, clock⟩ := fits
    have whole : cartridge.controller.sramOnes = 0 := by simp [Controller.sramOnes_eq, clock]
    cases other with
    | ram k => rfl
    | clock k =>
      simp only [shows, store, SramSlot.place, byte?, Vector.getElem?_setIfInBounds]
      by_cases same : n = k
      · subst same
        simp [bound, whole]
      · simp [same]

/-- An image with a whole header asks for a controller with the board that is built around it. -/
theorem ofImage_of_parse {image : Array UInt8} {header : Header}
    (parsed : Header.parse image = .ok header) :
    ofImage image = .ok (assemble header image (.ofKind header.expectedController)) := by
  unfold ofImage
  rw [parsed]
  rfl

/-- A board that is built around an image has read its header. -/
theorem built_of_parse {image : Array UInt8} {build : Header → Cartridge}
    (built : (do return build (← Header.parse image)) = Except.ok cartridge) :
    ∃ header, cartridge = build header := by
  cases parsed : Header.parse image with
  | error refusal =>
    rw [parsed] at built
    cases built
  | ok header =>
    rw [parsed] at built
    cases built
    exact ⟨header, rfl⟩

/-- Fresh from the image a board has the controller that its header asks for, and nothing is
set behind the RAM window but the bits that cannot be cleared. -/
theorem fresh_of_ofImage {image : Array UInt8} (inserted : ofImage image = .ok cartridge) :
    cartridge.controller.kind = cartridge.header.expectedController ∧
      ∀ slot : SramSlot, slot.Fits cartridge.sram.size cartridge.controller.kind →
        cartridge.shows slot = cartridge.controller.sramOnes := by
  obtain ⟨header, rfl⟩ := built_of_parse inserted
  refine ⟨Controller.kind_ofKind _, ?_⟩
  intro slot fits
  cases slot with
  | ram n =>
    have bound : n < (assemble header image (.ofKind header.expectedController)).sram.size := fits
    rw [assemble, Array.size_replicate] at bound
    simp [shows, byte?, SramSlot.place, assemble, bound]
  | clock n =>
    obtain ⟨bound, clock⟩ := fits
    have whole : (Controller.ofKind header.expectedController).sramOnes = 0 := by
      rw [Controller.sramOnes_eq, if_neg]
      intro nibbles
      rw [assemble, nibbles] at clock
      contradiction
    simp [shows, byte?, SramSlot.place, assemble, bound, whole]

end Cartridge

namespace Hardware

/-! ## Writes -/

/-- The writes that are looked at: to the ROM area and to the RAM window. -/
def ReachesCartridge (write : BusWrite) : Prop :=
  write.address < 0x8000 ∨ (0xA000 ≤ write.address ∧ write.address < 0xC000)

instance (write : BusWrite) : Decidable (ReachesCartridge write) :=
  inferInstanceAs (Decidable (_ ∨ _))

/-- The controller after a write: to the controller goes what is written to the ROM area where
the boot image does not cover it. -/
def select (hw : Hardware) (controller : Controller) (write : BusWrite) : Controller :=
  if write.address < 0x8000 ∧ hw.bootAnswers write.address = false then
    controller.write write.address write.value
  else
    controller

/-- The boot image ignores what is written to it. -/
theorem take_covered (hw : Hardware) {write : BusWrite} (below : write.address < 0x8000)
    (covered : hw.bootAnswers write.address = true) : hw.take write = hw := by
  rw [take, resolve, if_pos below, if_pos covered]
  rfl

/-- A write to the ROM area that no boot image covers reaches the controller alone. -/
theorem take_rom_area (hw : Hardware) {write : BusWrite} (below : write.address < 0x8000)
    (bare : hw.bootAnswers write.address = false)
    (plain : hw.cartridge.controller.kind ≠ .flash) :
    (hw.take write).memories = hw.memories ∧ (hw.take write).cartridge =
      { hw.cartridge with
        controller := hw.cartridge.controller.write write.address write.value } := by
  have place : hw.resolve write.address = hw.cartridge.romPlace write.address := by
    simp [resolve, below, bare]
  have stored := hw.cartridge.store_rom plain
    (hw.cartridge.controller.mapRom write.address % hw.cartridge.rom.size) write.address write.value
  rw [take, place, ← stored]
  exact ⟨rfl, rfl⟩

/-- A write to the RAM window stores behind it what the controller names, and nothing else. -/
theorem take_window (hw : Hardware) {write : BusWrite}
    (window : 0xA000 ≤ write.address ∧ write.address < 0xC000) :
    (hw.take write).memories = hw.memories ∧ (hw.take write).cartridge =
      match hw.cartridge.controller.slot? hw.cartridge.sram.size write.address with
      | some slot => hw.cartridge.store slot.place write.value
      | none => hw.cartridge := by
  rw [take, hw.resolve_sram window, hw.cartridge.sramPlace_eq window]
  cases hw.cartridge.controller.slot? hw.cartridge.sram.size write.address with
  | none => exact ⟨rfl, rfl⟩
  | some slot => cases slot <;> exact ⟨rfl, rfl⟩

/-- Hardware on the way from `start` on which nothing but the cartridge has changed, and of the
cartridge nothing but its controller and what the RAM window shows. -/
structure Follows (start : Hardware) (controller : Controller) (hw : Hardware) : Prop where
  memories : hw.memories = start.memories
  answers : hw.cartridge.controller = controller
  kind : controller.kind = start.cartridge.controller.kind
  size : hw.cartridge.sram.size = start.cartridge.sram.size

variable {start hw : Hardware} {controller : Controller}

/-- The boot image answers as it did at first. -/
theorem Follows.bootAnswers (follows : Follows start controller hw) (address : UInt16) :
    hw.bootAnswers address = start.bootAnswers address := by
  simp only [Hardware.bootAnswers, bootMapped, stored, follows.memories]

/-- What is written to the ROM area is for the controller only. -/
theorem Follows.take_rom_area (plain : start.cartridge.controller.kind ≠ .flash)
    {write : BusWrite} (follows : Follows start controller hw) (below : write.address < 0x8000) :
    Follows start (start.select controller write) (hw.take write) ∧
      ∀ slot : SramSlot, (hw.take write).cartridge.shows slot = hw.cartridge.shows slot := by
  have same := follows.bootAnswers write.address
  cases covered : start.bootAnswers write.address with
  | true =>
    rw [hw.take_covered below (same.trans covered)]
    have stays : start.select controller write = controller := by simp [select, covered]
    rw [stays]
    exact ⟨follows, fun _ => rfl⟩
  | false =>
    have plainHere : hw.cartridge.controller.kind ≠ .flash := by
      rw [follows.answers, follows.kind]
      exact plain
    obtain ⟨memories, cartridge⟩ := hw.take_rom_area below (same.trans covered) plainHere
    rw [follows.answers] at cartridge
    refine ⟨⟨memories.trans follows.memories, ?_, ?_, ?_⟩, ?_⟩
    · simp [select, below, covered, cartridge]
    · simp [select, below, covered, Controller.kind_write, follows.kind]
    · simp [cartridge, follows.size]
    · intro slot
      rw [cartridge]
      cases slot <;> rfl

/-- What is written to the window reaches the byte that it shows, with the bits set that are
always set. -/
theorem Follows.take_window {write : BusWrite} (follows : Follows start controller hw)
    (window : 0xA000 ≤ write.address ∧ write.address < 0xC000) :
    Follows start controller (hw.take write) ∧
      ∀ slot : SramSlot, (hw.take write).cartridge.shows slot =
        if controller.slot? start.cartridge.sram.size write.address = some slot then
          write.value ||| controller.sramOnes
        else hw.cartridge.shows slot := by
  obtain ⟨memories, cartridge⟩ := hw.take_window window
  rw [follows.answers, follows.size] at cartridge
  cases found : controller.slot? start.cartridge.sram.size write.address with
  | none =>
    rw [found] at cartridge
    refine ⟨⟨memories.trans follows.memories, ?_, follows.kind, ?_⟩, ?_⟩
    · rw [cartridge, follows.answers]
    · rw [cartridge, follows.size]
    · simp [cartridge]
  | some slot =>
    rw [found] at cartridge
    obtain ⟨controllerStays, sizeStays⟩ := hw.cartridge.store_slot slot write.value
    refine ⟨⟨memories.trans follows.memories, ?_, follows.kind, ?_⟩, ?_⟩
    · rw [cartridge]
      exact controllerStays.trans follows.answers
    · rw [cartridge]
      exact sizeStays.trans follows.size
    · intro other
      have fits := Controller.fits_of_slot? found
      rw [← follows.size, ← follows.answers] at fits
      rw [cartridge, Cartridge.shows_store fits, follows.answers]
      simp

/-- One write: the controller goes on as it says, and it reaches no byte behind the window but
the one that the window shows at its address. -/
theorem Follows.take (plain : start.cartridge.controller.kind ≠ .flash) (write : BusWrite)
    (follows : Follows start controller hw) (reaches : ReachesCartridge write) :
    Follows start (start.select controller write) (hw.take write) ∧
      ∀ slot : SramSlot, (hw.take write).cartridge.shows slot =
        if controller.slot? start.cartridge.sram.size write.address = some slot then
          write.value ||| start.cartridge.controller.sramOnes
        else hw.cartridge.shows slot := by
  rcases reaches with below | window
  · have outside : controller.slot? start.cartridge.sram.size write.address = none := by
      grind [Controller.slot?]
    obtain ⟨next, kept⟩ := follows.take_rom_area plain below
    refine ⟨next, ?_⟩
    intro slot
    simp [outside, kept]
  · have stays : start.select controller write = controller := by grind [select]
    have ones : controller.sramOnes = start.cartridge.controller.sramOnes := by
      rw [Controller.sramOnes_eq, Controller.sramOnes_eq, follows.kind]
    rw [stays, ← ones]
    exact follows.take_window window

/-! ## Protection -/

/-- While the window is shut a write changes nothing behind it, and a write to the ROM area
never does. -/
theorem take_protected {write : BusWrite} (plain : hw.cartridge.controller.kind ≠ .flash)
    (protects : write.address < 0x8000 ∨ (0xA000 ≤ write.address ∧ write.address < 0xC000) ∧
      hw.cartridge.controller.sramEnabled = false) :
    (hw.take write).cartridge.sram = hw.cartridge.sram ∧
      (hw.take write).cartridge.clock = hw.cartridge.clock := by
  rcases protects with below | ⟨window, shut⟩
  · cases covered : hw.bootAnswers write.address with
    | true =>
      rw [hw.take_covered below covered]
      exact ⟨rfl, rfl⟩
    | false =>
      rw [(hw.take_rom_area below covered plain).2]
      exact ⟨rfl, rfl⟩
  · have hidden : hw.cartridge.controller.slot? hw.cartridge.sram.size write.address = none := by
      simp [Controller.slot?, shut]
    obtain ⟨-, cartridge⟩ := hw.take_window window
    rw [hidden] at cartridge
    rw [cartridge]
    exact ⟨rfl, rfl⟩

end Hardware

namespace Machine

open Hardware

/-- A cartridge is fresh from its image. After any writes to the ROM area and the RAM window an
address of the window shows the byte last written to what it stands for while the window was
open, with the bits set that are always set, and the byte that is there from the start if
there was none; where the window shows nothing it reads as all ones. And at any time writes
to the ROM area, and all writes while the window is shut, leave RAM and clock registers alone. -/
theorem cartridge_ram_keeps_last_write {image : Array UInt8} (m : Machine)
    (inserted : Cartridge.ofImage image = .ok m.bus.cartridge) (writes : List BusWrite)
    (reaches : ∀ write ∈ writes, ReachesCartridge write) :
    let fresh := m.bus.cartridge
    let shown (controller : Controller) := controller.slot? fresh.sram.size
    let ones : UInt8 := if fresh.header.expectedController = .mbc2 then 0xF0 else 0x00
    let final := m.writeAll writes
    (∀ address : UInt16, 0xA000 ≤ address → address < 0xC000 →
      final.read address =
        match shown (writes.foldl m.bus.select fresh.controller) address with
        | none => 0xFF
        | some slot =>
          ((lastWritten m.bus.select shown slot fresh.controller writes).map (· ||| ones)).getD
            ones) ∧
    ∀ (address : UInt16) (value : UInt8),
      address < 0x8000 ∨ (0xA000 ≤ address ∧ address < 0xC000) ∧
        final.bus.cartridge.controller.sramEnabled = false →
      let next := final.writeAt address value
      next.bus.cartridge.sram = final.bus.cartridge.sram ∧
        next.bus.cartridge.clock = final.bus.cartridge.clock := by
  intro fresh shown ones final
  obtain ⟨kind, filled⟩ := Cartridge.fresh_of_ofImage inserted
  have plain : fresh.controller.kind ≠ .flash := by
    rw [kind]
    exact fresh.header.expectedController_ne_flash
  have first : Follows m.bus fresh.controller m.bus := ⟨rfl, rfl, rfl, rfl⟩
  -- What stands behind the window is told by the last write to it, byte by byte. What is left is
  -- which byte an address shows.
  obtain ⟨follows, last⟩ := shown_foldl (fun hw (slot : SramSlot) => hw.cartridge.shows slot)
    (· ||| fresh.controller.sramOnes)
    (fun write follows reaches => follows.take plain write reaches) writes reaches first
  rw [← writeAll_bus] at follows last
  have nibbles : fresh.controller.sramOnes = ones := by
    rw [Controller.sramOnes_eq, kind]
  constructor
  · intro address above below
    have read : final.read address = final.bus.load (final.bus.resolve address) :=
      final.load_resolve address
    rw [read, final.bus.resolve_sram ⟨above, below⟩,
      final.bus.cartridge.sramPlace_eq ⟨above, below⟩, follows.answers, follows.size]
    dsimp only [shown]
    cases found : (writes.foldl m.bus.select fresh.controller).slot? fresh.sram.size address with
    | none => rfl
    | some slot =>
      have fits := Controller.fits_of_slot? found
      rw [follows.kind] at fits
      calc final.bus.load slot.place
          = final.bus.cartridge.shows slot := by cases slot <;> rfl
        _ = ((lastWritten m.bus.select shown slot fresh.controller writes).map
              (· ||| fresh.controller.sramOnes)).getD (fresh.shows slot) := last slot
        _ = _ := by rw [filled slot fits, nibbles]
  · intro address value protects next
    have plainHere : final.bus.cartridge.controller.kind ≠ .flash := by
      rw [follows.answers, follows.kind]
      exact plain
    have taken : next.bus = final.bus.take ⟨address, value⟩ := final.writeAt_bus ⟨address, value⟩
    rw [taken]
    exact take_protected plainHere protects

/-- An image with a header that asks for the third controller, a clock and 32 KiB of RAM. -/
def clockImage : Array UInt8 :=
  ((Array.replicate 0x150 0).setIfInBounds 0x147 0x10).setIfInBounds 0x149 0x03

/-- The example image has a header with a clock and RAM of 32 KiB. -/
theorem parse_clockImage :
    ∃ header, Header.parse clockImage = .ok header ∧ header.cartridgeType = 0x10 ∧
      header.ramSize = 0x03 := by
  have whole : Header.leastImage ≤ clockImage.size := by simp [clockImage, Header.leastImage]
  obtain ⟨header, parsed, type, ram⟩ := Header.parse_of_whole whole
  refine ⟨header, parsed, ?_, ?_⟩
  · simp [type, clockImage]
  · simp [ram, clockImage]

/-- A byte of bank 2 outlasts a write to a clock register at the same address and a write while
the window is shut, and is found again through another number of its bank. -/
theorem cartridge_ram_keeps_last_write_under_clock :
    let writes : List BusWrite :=
      [⟨0x0000, 0x0A⟩, ⟨0x4000, 0x02⟩, ⟨0xA123, 0x55⟩, ⟨0x4000, 0x0A⟩, ⟨0xA123, 0x77⟩,
        ⟨0x0000, 0x00⟩, ⟨0xA123, 0x99⟩, ⟨0x1FFF, 0x0A⟩, ⟨0x4000, 0x06⟩]
    ∃ cartridge, Cartridge.ofImage clockImage = .ok cartridge ∧
      let m := Machine.assemble cartridge #[]
      (m.writeAll writes).read 0xA123 = 0x55 ∧
        ((m.writeAll writes).writeAt 0x5FFF 0xFF).bus.cartridge.sram =
          (m.writeAll writes).bus.cartridge.sram := by
  intro writes
  obtain ⟨header, parsed, type, ram⟩ := parse_clockImage
  have clock : header.expectedController = .mbc3Clock := by simp [Header.expectedController, type]
  have inserted : Cartridge.ofImage clockImage =
      .ok (.assemble header clockImage (.mbc3 { hasClock := true })) := by
    unfold Cartridge.ofImage
    rw [parsed]
    show Except.ok (Cartridge.assemble header clockImage (.ofKind header.expectedController)) = _
    rw [clock]
    rfl
  refine ⟨_, inserted, ?_⟩
  intro m
  have size : m.bus.cartridge.sram.size = 0x8000 := by
    show (Array.replicate (max header.sramBytes 0) (0 : UInt8)).size = 0x8000
    simp [Header.sramBytes, ram]
  have controller : m.bus.cartridge.controller = .mbc3 { hasClock := true } := rfl
  have whole : m.bus.cartridge.header.expectedController = .mbc3Clock := clock
  have selects : m.bus.select = fun controller write =>
      if write.address < 0x8000 then controller.write write.address write.value
      else controller := by
    funext controller write
    have bare : m.bus.bootAnswers write.address = false := rfl
    simp [select, bare]
  have reaches : ∀ write ∈ writes, ReachesCartridge write := by simp [writes, ReachesCartridge]
  obtain ⟨reads, protects⟩ := cartridge_ram_keeps_last_write m inserted writes reaches
  have shows := reads 0xA123 (by decide) (by decide)
  obtain ⟨sram, -⟩ := protects 0x5FFF 0xFF (.inl (by decide))
  rw [size, controller, whole, selects] at shows
  refine ⟨shows.trans ?_, sram⟩
  decide +kernel

end Machine

end Handheld
