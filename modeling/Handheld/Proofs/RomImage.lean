import Handheld.Proofs.AddressDecoder
import Handheld.Proofs.ReadOnly
import Mathlib.Data.Nat.Log
import Mathlib.Order.Bounds.Basic

/-!
# A cartridge reads back as its image

A ROM chip comes in sizes that double from two banks on. An image goes onto the smallest chip that
holds it (`Rom.isLeast_size_ofImage`), from the first byte on, and the rest of the chip reads as
all ones (`Rom.getElem?_ofImage`). What a controller shows is a byte of that chip: it names an
offset, possibly one far beyond the chip, and the board reduces it to the size. As the size is a
multiple of a bank the reduction leaves the offset within the bank alone. So an address of the ROM
area shows the byte of the image at the reduced offset, or a byte of the padding, whatever has been
made of the controller, and no session changes a byte of it.
-/

set_option autoImplicit false

namespace Handheld

namespace Rom

/-! ## The smallest chip -/

/-- The size of a chip, told in banks. -/
theorem chipSize_eq_banks (doublings : Nat) :
    chipSize doublings = 0x4000 * Nat.pow 2 (doublings + 1) := by
  rw [chipSize_eq]
  show 2 * 0x4000 * Nat.pow 2 _ = 0x4000 * (Nat.pow 2 _ * 2)
  omega

/-- More doublings never make a smaller chip. -/
theorem chipSize_le_chipSize {few many : Nat} (le : few ≤ many) : chipSize few ≤ chipSize many := by
  rw [chipSize_eq, chipSize_eq]
  exact Nat.mul_le_mul_left _ (Nat.pow_le_pow_right (by decide) le)

/-- A chip that holds an image has been doubled often enough. -/
theorem doublingsFor_le {size doublings : Nat} (holds : size ≤ chipSize doublings) :
    doublingsFor size ≤ doublings := by
  unfold doublingsFor
  split
  next => exact Nat.zero_le _
  next large =>
    -- The quotient is the number of smallest chips that would be full before the last byte.
    rw [chipSize_eq] at holds
    have full : 0 < (size - 1) / leastSize := Nat.div_pos (by omega) (by decide)
    have fewer : (size - 1) / leastSize < Nat.pow 2 doublings :=
      Nat.div_lt_of_lt_mul (by omega)
    exact (Nat.log2_lt full.ne').mpr fewer

/-- The chip for an image is the least power of two of banks, two banks at least, that holds it. -/
theorem isLeast_size_ofImage (image : Array UInt8) :
    IsLeast {size | (∃ j, size = 0x4000 * Nat.pow 2 j) ∧ max image.size 0x8000 ≤ size}
      (ofImage image).size := by
  have size : (ofImage image).size = chipSize (doublingsFor image.size) := size_padded image
  rw [size]
  refine ⟨⟨⟨doublingsFor image.size + 1, chipSize_eq_banks _⟩, ?_⟩, ?_⟩
  · exact max_le (le_sizeFor image.size) (chipSize_le_chipSize (Nat.zero_le _))
  · rintro _ ⟨⟨j, rfl⟩, holds⟩
    obtain ⟨large, two⟩ := max_le_iff.mp holds
    cases j with
    | zero => exact absurd two (by decide)
    | succ doublings =>
      rw [← chipSize_eq_banks] at large ⊢
      exact chipSize_le_chipSize (doublingsFor_le large)

/-- The number of doublings, told by the power of two to which the number of banks is rounded
up. -/
theorem doublingsFor_eq_clog (size : Nat) :
    doublingsFor size = Nat.clog 2 ((size + 0x3FFF) / 0x4000) - 1 := by
  have fits : ∀ doublings, size ≤ chipSize doublings ↔
      Nat.clog 2 ((size + 0x3FFF) / 0x4000) ≤ doublings + 1 := by
    intro doublings
    have banks : size ≤ 0x4000 * Nat.pow 2 (doublings + 1) ↔
        (size + 0x3FFF) / 0x4000 ≤ Nat.pow 2 (doublings + 1) := by omega
    rw [chipSize_eq_banks, banks]
    exact (Nat.clog_le_iff_le_pow Nat.one_lt_two).symm
  apply Nat.le_antisymm
  · exact doublingsFor_le ((fits _).mpr (by omega))
  · have covers := (fits _).mp (le_sizeFor size)
    omega

/-- The smallest chip has as many banks as the image begins, rounded up to a power of two, and two
at least. -/
theorem sizeFor_eq_max (size : Nat) :
    sizeFor size = 0x4000 * max 2 (Nat.pow 2 (Nat.clog 2 ((size + 0x3FFF) / 0x4000))) := by
  unfold sizeFor
  rw [doublingsFor_eq_clog, chipSize_eq_banks]
  cases Nat.clog 2 ((size + 0x3FFF) / 0x4000) with
  | zero => rfl
  | succ doublings =>
    have two : 2 ≤ Nat.pow 2 (doublings + 1) := Nat.le_self_pow (Nat.succ_ne_zero _) 2
    rw [max_eq_right two]
    rfl

/-- A byte of the chip is the byte of the image there, or one of the padding. -/
theorem getElem?_ofImage (image : Array UInt8) {n : Nat} (inside : n < (ofImage image).size) :
    (ofImage image).bytes[n]? = some (image.getD n 0xFF) := by
  have room : n < sizeFor image.size := (size_padded image).symm ▸ inside
  show (image ++ Array.replicate _ 0xFF)[n]? = _
  rw [Array.getElem?_append, Array.getD_eq_getD_getElem?]
  split
  next held => rw [Array.getElem?_eq_getElem held, Option.getD_some]
  next past =>
    have padding : n - image.size < sizeFor image.size - image.size := by omega
    rw [Array.getElem?_eq_none (Nat.not_lt.mp past), Array.getElem?_replicate, if_pos padding,
      Option.getD_none]

end Rom

/-! ## Boards -/

namespace Cartridge

/-- An image without room for a header is rejected with its size. -/
theorem ofImage_of_short {image : Array UInt8} (short : image.size < Header.leastImage) :
    ofImage image = .error (.tooSmall image.size) := by
  unfold ofImage Header.parse
  rw [if_pos short]
  rfl

/-- The board around a whole image has the controller that the header asks for, and the image on
its ROM chip. -/
theorem ofImage_of_whole {image : Array UInt8} (whole : Header.leastImage ≤ image.size) :
    ∃ (cartridge : Cartridge) (header : Header),
      ofImage image = .ok cartridge ∧ cartridge.rom = .ofImage image ∧
      header.cartridgeType = image.getD 0x147 0 ∧
      cartridge.controller = .ofKind header.expectedController := by
  obtain ⟨header, parsed, type, -⟩ := Header.parse_of_whole whole
  exact ⟨_, header, ofImage_of_parse parsed, rfl, type, rfl⟩

/-- Whatever controller is on the board: an address of the ROM area has its offset within a bank
from the address itself, and a byte of the image or of the padding is there. -/
theorem romPlace_shows {cartridge : Cartridge} {image : Array UInt8}
    (rom : cartridge.rom = .ofImage image) (address : UInt16) :
    let offset := cartridge.controller.mapRom address % cartridge.rom.size
    offset % 0x4000 = address.toNat % 0x4000 ∧
      cartridge.byte? (cartridge.romPlace address) = some (image.getD offset 0xFF) := by
  intro offset
  have inside : offset < cartridge.rom.size := Nat.mod_lt _ cartridge.rom.size_pos
  constructor
  · rw [Nat.mod_mod_of_dvd _ cartridge.rom.dvd_size, Controller.mapRom_mod]
  · show cartridge.rom.bytes[offset]? = _
    rw [rom] at inside ⊢
    exact Rom.getElem?_ofImage image inside

end Cartridge

namespace Machine

open Hardware

/-- Only another cartridge brings another ROM. -/
theorem rom_session_of_not_swapped (m : Machine) {requests : List Request}
    (kept : ∀ cartridge notes, .swap cartridge notes ∉ requests) :
    (m.session requests).1.bus.cartridge.rom = m.bus.cartridge.rom := by
  rw [m.rom_session]
  induction requests with
  | nil => rfl
  | cons request requests ih =>
    have same : request.chip m.bus.cartridge.rom = m.bus.cartridge.rom := by
      cases request with
      | swap cartridge notes => exact absurd List.mem_cons_self (kept cartridge notes)
      | _ => rfl
    rw [List.foldl_cons, same]
    apply ih
    intro cartridge notes member
    exact kept cartridge notes (List.mem_cons_of_mem _ member)

/-- An image without a whole header is refused. Any other is put onto the smallest ROM chip that
holds it, and reads back. After any session that leaves the cartridge in the machine, whatever is
written to its controller and whichever controllers are installed, an address of the ROM area shows
the byte of the image at the offset that the controller names, reduced to the size of the chip, or
all ones past the end of the image; the offset agrees with the address in its fourteen low bits. -/
theorem reads_back_image (image : Array UInt8) :
    (image.size < 0x150 → Cartridge.ofImage image = .error (.tooSmall image.size)) ∧
    (0x150 ≤ image.size → ∃ cartridge, Cartridge.ofImage image = .ok cartridge ∧
      IsLeast {size | (∃ j, size = 0x4000 * Nat.pow 2 j) ∧ max image.size 0x8000 ≤ size}
        cartridge.rom.size ∧
      ∀ (m : Machine) (requests : List Request), m.bus.cartridge = cartridge →
        (∀ other notes, .swap other notes ∉ requests) →
        let last := (m.session requests).1
        let board := last.bus.cartridge
        ∀ address : UInt16, address < 0x8000 →
          let offset := board.controller.mapRom address % cartridge.rom.size
          board.romPlace address = .rom offset address ∧
            offset % 0x4000 = address.toNat % 0x4000 ∧
            board.byte? (board.romPlace address) = some (image.getD offset 0xFF) ∧
            (last.bus.bootAnswers address = false →
              last.read address = image.getD offset 0xFF)) := by
  refine ⟨Cartridge.ofImage_of_short, ?_⟩
  intro whole
  obtain ⟨cartridge, -, made, rom, -⟩ := Cartridge.ofImage_of_whole whole
  refine ⟨cartridge, made, ?_, ?_⟩
  · rw [rom]
    exact Rom.isLeast_size_ofImage image
  · intro m requests holds kept last board address below offset
    have same : board.rom = cartridge.rom :=
      (m.rom_session_of_not_swapped kept).trans (congrArg (fun board => board.rom) holds)
    obtain ⟨within, shown⟩ := Cartridge.romPlace_shows (same.trans rom) address
    have place : board.romPlace address = .rom offset address := by
      show Place.rom (_ % board.rom.size) address = _
      rw [same]
    rw [same] at within shown
    refine ⟨place, within, shown, ?_⟩
    intro bare
    have found : last.bus.resolve address = board.romPlace address := by
      simp [Hardware.resolve, below, bare, board]
    have read : last.read address = last.bus.load (last.bus.resolve address) :=
      last.load_resolve address
    rw [read, found, place]
    rw [place] at shown
    show (board.byte? (.rom offset address)).getD 0xFF = _
    rw [shown, Option.getD_some]

/-- An image one byte larger than two banks, with a header that asks for the fifth controller. -/
def straddlingImage : Array UInt8 :=
  ((Array.replicate 0x8001 0).setIfInBounds 0x147 0x19).setIfInBounds 0x8000 0x42

/-- The controller is told to show bank 106, which is bank 2 of the four that there are. Its first
byte is the last one of the image, and the next one is padding. -/
theorem reads_back_image_of_straddling :
    Cartridge.ofImage (Array.replicate 0x14F 0) = .error (.tooSmall 0x14F) ∧
    ∃ cartridge, Cartridge.ofImage straddlingImage = .ok cartridge ∧
      cartridge.rom.size = 0x10000 ∧
      let last := ((assemble cartridge #[]).session [.write 0x3000 0x01, .write 0x2000 0x06]).1
      last.bus.cartridge.romBank = 0x106 ∧ last.read 0x4000 = 0x42 ∧ last.read 0x4001 = 0xFF := by
  constructor
  · have short : (Array.replicate 0x14F (0 : UInt8)).size = 0x14F := Array.size_replicate
    have refused := (reads_back_image (Array.replicate 0x14F 0)).1
    rw [short] at refused
    exact refused (by decide)
  · have size : straddlingImage.size = 0x8001 := by simp [straddlingImage]
    have whole : Header.leastImage ≤ straddlingImage.size := by
      rw [size]
      decide
    obtain ⟨cartridge, made, -, reads⟩ := (reads_back_image straddlingImage).2 whole
    obtain ⟨same, header, also, rom, type, controller⟩ := Cartridge.ofImage_of_whole whole
    cases made.symm.trans also
    have chip : cartridge.rom.size = 0x10000 := by
      rw [rom]
      show (Rom.padded straddlingImage).size = _
      rw [Rom.size_padded, size]
      decide
    have fifth : cartridge.controller = .mbc5 {} := by
      have asked : header.expectedController = .mbc5 := by
        simp [Header.expectedController, type, straddlingImage]
      rw [controller, asked]
      rfl
    refine ⟨cartridge, made, chip, ?_⟩
    intro last
    have shows :=
      reads (assemble cartridge #[]) [.write 0x3000 0x01, .write 0x2000 0x06] rfl (by simp)
    let start := (assemble cartridge #[]).bus
    have follows : Follows start (.mbc5 { romBank := 0x106 }) last.bus := by
      have plain : start.cartridge.controller.kind ≠ .flash := by
        rw [show start.cartridge.controller = _ from fifth]
        decide
      have first : Follows start (.mbc5 {}) start := ⟨rfl, fifth, congrArg _ fifth.symm, rfl⟩
      have second := (first.take plain ⟨0x3000, 0x01⟩ (by decide)).1
      have third := (second.take plain ⟨0x2000, 0x06⟩ (by decide)).1
      have taken := writeAll_bus (assemble cartridge #[]) [⟨0x3000, 0x01⟩, ⟨0x2000, 0x06⟩]
      exact taken.symm ▸ third
    have offsets : last.bus.cartridge.controller.mapRom 0x4000 % cartridge.rom.size = 0x8000 ∧
        last.bus.cartridge.controller.mapRom 0x4001 % cartridge.rom.size = 0x8001 := by
      rw [follows.answers, chip]
      decide
    obtain ⟨-, -, -, held⟩ := shows 0x4000 (by decide)
    obtain ⟨-, -, -, past⟩ := shows 0x4001 (by decide)
    refine ⟨congrArg Controller.romBank follows.answers, ?_, ?_⟩
    · refine (held (follows.bootAnswers _)).trans ?_
      rw [offsets.1]
      simp [straddlingImage]
    · refine (past (follows.bootAnswers _)).trans ?_
      rw [offsets.2]
      simp [straddlingImage]

end Machine

end Handheld
