import Handheld.Hardware.Bus
import Handheld.Proofs.Hardware.Devices
import Handheld.Proofs.Hardware.Memory

/-!
# What a store can change

A store reaches one place, but the device registers make more of it: a transfer starts,
the divider starts anew, a block is copied, a palette moves on. `Written` says what may
have come of all this. The clock, the screen, the mode, the boot image and the identity of
the cartridge are out of reach of any store, and a device register changes only as its own
rule, `registerKeeps`, lets it.
-/

set_option autoImplicit false

namespace Handheld

/-- No store changes the header. -/
theorem Cartridge.store_header (cartridge : Cartridge) (place : Place) (value : UInt8) :
    (cartridge.store place value).header = cartridge.header := by
  cases place with
  | rom offset address =>
    show (obey _ (cartridge.controller.command address value)).header = _
    unfold obey
    split <;> rfl
  | _ => rfl

namespace Hardware

/-! ## Block copies -/

/-- The hardware without the memories that can be written to; the device registers stay. -/
def bare (hw : Hardware) : Hardware :=
  { hw with memories := { boot := hw.memories.boot, io := hw.memories.io } }

/-- A store to memory changes the hardware in its memories and its cartridge only. -/
theorem storeMemory_bare (hw : Hardware) (place : Place) (value : UInt8) :
    (hw.storeMemory place value).bare = hw.bare := by
  cases place <;> rfl

/-- A block copy ends in the memories. -/
theorem carryOut_bare (hw : Hardware) (moves : List Move) :
    (moves.foldl carryOut hw).bare = hw.bare := by
  induction moves generalizing hw with
  | nil => rfl
  | cons move moves ih =>
    have first : (hw.carryOut move).bare = hw.bare := hw.storeMemory_bare _ _
    exact (ih _).trans first

/-! ## The outcomes of a store -/

/-- What a store may have made of the hardware. -/
structure Written (hw next : Hardware) : Prop where
  now : next.now = hw.now
  lineStart : next.lineStart = hw.lineStart
  color : next.color = hw.color
  boot : next.memories.boot = hw.memories.boot
  header : next.cartridge.header = hw.cartridge.header
  timer : next.timer = hw.timer ∨ next.timer = { hw.timer with dividerStart := hw.now }
  bits : next.serial.bitsLeft = hw.serial.bitsLeft ∨ next.serial.bitsLeft = 8
  stored : ∀ r, next.stored r = hw.stored r ∨
    ∃ value, next.stored r = registerKeeps r (hw.stored r) value

namespace Written

variable {hw next : Hardware}

/-- A store may change nothing. -/
theorem refl (hw : Hardware) : Written hw hw :=
  ⟨rfl, rfl, rfl, rfl, rfl, .inl rfl, .inl rfl, fun _ => .inl rfl⟩

/-- A store may change only what the bare hardware leaves out. -/
theorem of_bare (same : next.bare = hw.bare) : Written hw next := by
  have bare : Written hw.bare next.bare := by
    rw [same]
    exact refl _
  -- The parts that are compared are those of the bare hardware.
  exact ⟨bare.now, bare.lineStart, bare.color, bare.boot, bare.header, bare.timer, bare.bits,
    bare.stored⟩

/-- A store may reach the background palette. -/
theorem backgroundPalette (hw : Hardware) (palette : Vector UInt8 0x40) :
    Written hw { hw with memories := { hw.memories with backgroundPalette := palette } } :=
  of_bare rfl

/-- A store may reach the sprite palette. -/
theorem spritePalette (hw : Hardware) (palette : Vector UInt8 0x40) :
    Written hw { hw with memories := { hw.memories with spritePalette := palette } } :=
  of_bare rfl

/-- After an outcome a register may be given what it keeps of a value. -/
theorem setStored (h : Written hw next) (r : DeviceRegister) (value : UInt8) :
    Written hw (next.setStored r (registerKeeps r (hw.stored r) value)) where
  now := h.now
  lineStart := h.lineStart
  color := h.color
  boot := h.boot
  header := h.header
  timer := h.timer
  bits := h.bits
  stored q := by
    rw [stored_setStored]
    split
    next same =>
      subst same
      exact .inr ⟨value, rfl⟩
    next => exact h.stored q

end Written

/-- Starting a transfer is one of the outcomes. -/
theorem written_startSerial (hw : Hardware) (control : UInt8) :
    Written hw (hw.startSerial control) := by
  unfold startSerial
  split
  · exact ⟨rfl, rfl, rfl, rfl, rfl, .inl rfl, .inr rfl, fun _ => .inl rfl⟩
  · exact .refl hw

/-- What a register does when it is written is one of the outcomes. -/
theorem written_registerActs (hw : Hardware) (r : DeviceRegister) (value : UInt8) :
    Written hw (hw.registerActs r value) := by
  cases r with
  | sc => exact hw.written_startSerial value
  | div => exact ⟨rfl, rfl, rfl, rfl, rfl, .inr rfl, .inl rfl, fun _ => .inl rfl⟩
  | dma => exact .of_bare (hw.carryOut_bare _)
  | hdma5 =>
    unfold registerActs
    dsimp only
    split
    · exact .of_bare (hw.carryOut_bare _)
    · exact .refl hw
  -- A selector takes any byte, so the next selector is one that it may take.
  | bcpd => exact (Written.backgroundPalette hw _).setStored .bcps (nextSelector (hw.stored .bcps))
  | ocpd => exact (Written.spritePalette hw _).setStored .ocps (nextSelector (hw.stored .ocps))
  | _ => exact .refl hw

/-- A distance at which no device register lies is out of reach of them. -/
theorem stored_setIfInBounds {hw : Hardware} {n : Nat} (unused : DeviceRegister.ofOffset? n = none)
    (value : UInt8) (r : DeviceRegister) :
    { hw with memories := { hw.memories with
        io := hw.memories.io.setIfInBounds n value } }.stored r = hw.stored r := by
  have apart : n ≠ r.offset := by
    rintro rfl
    rw [r.ofOffset?_offset] at unused
    contradiction
  show (hw.memories.io.setIfInBounds n value)[r.offset.val] = _
  rw [Vector.getElem_setIfInBounds_ne _ apart]
  rfl

/-- Every store has one of these outcomes. -/
theorem written_store (hw : Hardware) (place : Place) (value : UInt8) :
    Written hw (hw.store place value) := by
  have board : Written hw (hw.storeCartridge place value) :=
    ⟨rfl, rfl, rfl, rfl, hw.cartridge.store_header place value, .inl rfl, .inl rfl,
      fun _ => .inl rfl⟩
  cases place with
  | io n =>
    show Written hw (hw.storeDevice n value)
    unfold storeDevice
    split
    next r _ => exact (hw.written_registerActs r value).setStored r value
    next unused =>
      exact ⟨rfl, rfl, rfl, rfl, rfl, .inl rfl, .inl rfl,
        fun r => .inl (stored_setIfInBounds unused _ r)⟩
  | rom _ _ | sram _ | rtc _ => exact board
  | _ => exact .of_bare (hw.storeMemory_bare _ value)

/-! ## The cartridge, the request to start anew, and the serial interface -/

/-- What a device makes of a store stays out of the cartridge and asks for no new start, and only
the control register reaches the serial interface. -/
theorem registerActs_outside (hw : Hardware) (r : DeviceRegister) (value : UInt8) :
    let next := hw.registerActs r value
    next.cartridge = hw.cartridge ∧ next.rebootRequested = hw.rebootRequested ∧
      (r ≠ .sc → next.serial = hw.serial) := by
  have copied : ∀ moves : List Move,
      let next := moves.foldl carryOut hw
      next.cartridge = hw.cartridge ∧ next.rebootRequested = hw.rebootRequested ∧
        (r ≠ .sc → next.serial = hw.serial) := by
    intro moves next
    have same : next.bare = hw.bare := hw.carryOut_bare moves
    exact ⟨congrArg (fun hw => hw.cartridge) same, congrArg (fun hw => hw.rebootRequested) same,
      fun _ => congrArg (fun hw => hw.serial) same⟩
  cases r with
  | sc =>
    simp only [registerActs, startSerial]
    split
    · exact ⟨rfl, rfl, fun other => absurd rfl other⟩
    · exact ⟨rfl, rfl, fun _ => rfl⟩
  | dma => exact copied _
  | hdma5 =>
    simp only [registerActs]
    split
    · exact copied _
    · exact ⟨rfl, rfl, fun _ => rfl⟩
  | _ => exact ⟨rfl, rfl, fun _ => rfl⟩

/-- The cartridge sees every store, and is reached by those to its own places. -/
theorem store_cartridge (hw : Hardware) (place : Place) (value : UInt8) :
    (hw.store place value).cartridge = hw.cartridge.store place value := by
  cases place with
  | io n =>
    simp only [store, storeDevice]
    split
    next r _ => exact (hw.registerActs_outside r value).1
    next => rfl
  | _ => rfl

/-- A new start is asked for by a command to the cartridge. -/
theorem store_rebootRequested (hw : Hardware) (place : Place) (value : UInt8) :
    (hw.store place value).rebootRequested =
      (hw.rebootRequested || hw.cartridge.command place value == some .reboot) := by
  cases place with
  | io n =>
    show (hw.storeDevice n value).rebootRequested = (hw.rebootRequested || false)
    rw [Bool.or_false]
    unfold storeDevice
    split
    next r _ => exact (hw.registerActs_outside r value).2.1
    next => rfl
  | rom _ _ | sram _ | rtc _ => rfl
  | _ => exact (Bool.or_false hw.rebootRequested).symm

/-- The serial interface is reached by stores to its control register only. -/
theorem store_serial (hw : Hardware) {place : Place} (value : UInt8)
    (elsewhere : place ≠ .io 0x02) : (hw.store place value).serial = hw.serial := by
  cases place with
  | io n =>
    simp only [store, storeDevice]
    split
    next r found =>
      have other : r ≠ .sc := by
        rintro rfl
        exact elsewhere (congrArg Place.io (DeviceRegister.eq_offset found))
      exact (hw.registerActs_outside r value).2.2 other
    next => rfl
  | _ => rfl

/-! ## Which registers a store reaches -/

/-- The windows are moved by the registers that choose the banks, and by the one that unmaps the
boot image. -/
theorem resolve_setStored (hw : Hardware) {r : DeviceRegister} (value : UInt8) (boot : r ≠ .boot)
    (video : r ≠ .vbk) (work : r ≠ .svbk) (address : UInt16) :
    (hw.setStored r value).resolve address = hw.resolve address := by
  simp only [resolve, bootAnswers, bootMapped, vramBank, wramPlace, wramBank, stored_setStored,
    if_neg boot, if_neg video, if_neg work]
  rfl

/-- What a device makes of a store leaves the registers alone, but for the selector of a
palette. -/
theorem stored_registerActs (hw : Hardware) (r : DeviceRegister) (value : UInt8)
    {q : DeviceRegister} (background : q ≠ .bcps) (sprites : q ≠ .ocps) :
    (hw.registerActs r value).stored q = hw.stored q := by
  have copied : ∀ moves : List Move, (moves.foldl carryOut hw).stored q = hw.stored q := by
    intro moves
    exact congrArg (fun hw => hw.stored q) (hw.carryOut_bare moves)
  cases r with
  | sc =>
    simp only [registerActs, startSerial]
    split <;> rfl
  | dma => exact copied _
  | hdma5 =>
    simp only [registerActs]
    split
    · exact copied _
    · rfl
  | bcpd =>
    simp only [registerActs, writeBackgroundPalette, stored_setStored, if_neg background.symm]
    rfl
  | ocpd =>
    simp only [registerActs, writeSpritePalette, stored_setStored, if_neg sprites.symm]
    rfl
  | _ => rfl

/-- A register that is no selector of a palette is reached by a store to its own place only. -/
theorem stored_store_of_ne (hw : Hardware) {place : Place} (value : UInt8) {q : DeviceRegister}
    (elsewhere : place ≠ .io q.offset) (background : q ≠ .bcps) (sprites : q ≠ .ocps) :
    (hw.store place value).stored q = hw.stored q := by
  cases place with
  | io n =>
    simp only [store, storeDevice]
    split
    next r found =>
      have other : r ≠ q := by
        rintro rfl
        exact elsewhere (congrArg Place.io (DeviceRegister.eq_offset found))
      rw [storeRegister, stored_setStored, if_neg other]
      exact hw.stored_registerActs r value background sprites
    next unused => exact stored_setIfInBounds unused value q
  | _ => rfl

end Hardware

end Handheld
