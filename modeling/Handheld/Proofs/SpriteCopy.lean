import Handheld.Proofs.Hardware.Memory
import Handheld.Proofs.Records
import Handheld.Proofs.Word

/-!
# The sprite table is copied at once

A store to the register at FF46 copies a page into the sprite table, one byte after another. Each
byte is read through the address decoder when its turn comes, and booked at once, so it could
matter what was copied before it. It does not: where a byte of the page lies in the sprite table, it
lies in the place to which it goes (`spriteSource_eq_oam`). So after any number of bytes the sprite
table and its origins are those of a copy that is made at once (`foldl_carryOut_firstMoves`,
`origin_booked`), and nothing else is reached.
-/

set_option autoImplicit false

namespace Handheld

namespace Hardware

/-! ## Where the bytes come from -/

/-- The address of a byte of a page. -/
def pageAddress (page : UInt8) (i : Nat) : UInt16 := UInt16.ofNat (page.toNat * 256 + i)

/-- The addresses of a page are its first address and an offset. -/
theorem word_add_ofNat (page : UInt8) (i : Nat) :
    word page 0 + UInt16.ofNat i = pageAddress page i := by
  have base : word page 0 = UInt16.ofNat (page.toNat * 256) := by
    apply UInt16.toNat_inj.mp
    have := page.toNat_lt
    have small : page.toNat * 256 < UInt16.size := by
      show _ < 65536
      omega
    rw [toNat_word, UInt16.toNat_ofNat_of_lt' small, UInt8.toNat_zero, Nat.add_zero]
  rw [base, ← UInt16.ofNat_add]
  rfl

/-- The place of a byte of a page. -/
def spriteSource (hw : Hardware) (page : UInt8) (i : Nat) : Place :=
  hw.resolve (pageAddress page i)

/-- The sprite table answers at its own addresses only. -/
theorem toNat_of_resolve_oam {hw : Hardware} {address : UInt16} {n : Nat}
    (found : hw.resolve address = .oam n) : address.toNat = 0xFE00 + n := by
  by_cases window : 0xFE00 ≤ address ∧ address < 0xFEA0
  · have above := UInt16.le_iff_toNat_le.mp window.1
    rw [resolve_oam hw window] at found
    obtain rfl := Place.oam.inj found
    exact (Nat.add_sub_cancel' above).symm
  · grind [resolve, Cartridge.romPlace, Cartridge.sramPlace, wramPlace]

/-- A byte that comes from the sprite table comes from the place to which it goes. -/
theorem spriteSource_eq_oam {hw : Hardware} {page : UInt8} {i n : Nat} (inside : i < 0xA0)
    (found : hw.spriteSource page i = .oam n) : n = i := by
  have shown := hw.resolve_shown (pageAddress page i)
  have here : hw.resolve (pageAddress page i) = .oam n := found
  have bound : n < 0xA0 := by
    rw [here] at shown
    cases shown with
    | oam _ bound => exact bound
  have := page.toNat_lt
  have distance := toNat_of_resolve_oam here
  rw [pageAddress, UInt16.toNat_ofNat_of_lt' (by show _ < 65536; omega)] at distance
  omega

/-! ## The bytes -/

/-- The hardware with another sprite table. -/
def withSprites (hw : Hardware) (oam : Vector UInt8 0xA0) : Hardware :=
  { hw with memories := { hw.memories with oam } }

/-- The sprite table shows in its own places only. -/
theorem load_withSprites (hw : Hardware) (oam : Vector UInt8 0xA0) {place : Place}
    (elsewhere : ∀ n, place ≠ .oam n) : (hw.withSprites oam).load place = hw.load place := by
  refine load_congr ?_ ?_
  · cases place with
    | oam n => exact absurd rfl (elsewhere n)
    | _ => rfl
  · intro register stored
    cases register <;> rfl

/-- The sprite table when so many bytes of a page have been copied into it at once. -/
def spritesCopied (hw : Hardware) (page : UInt8) (n : Nat) : Vector UInt8 0xA0 :=
  Vector.ofFn fun i => if i < n then hw.load (hw.spriteSource page i) else hw.memories.oam[i]

/-- No byte is overwritten before it is copied. -/
theorem load_spriteSource (hw : Hardware) (page : UInt8) {n : Nat} (inside : n < 0xA0) :
    (hw.withSprites (hw.spritesCopied page n)).load (hw.spriteSource page n) =
      hw.load (hw.spriteSource page n) := by
  by_cases sprite : ∃ m, hw.spriteSource page n = .oam m
  · obtain ⟨m, found⟩ := sprite
    obtain rfl := spriteSource_eq_oam inside found
    have kept : (hw.spritesCopied page m)[m] = hw.memories.oam[m] := by
      simp [spritesCopied]
    rw [found]
    show ((hw.spritesCopied page m)[m]?).getD 0xFF = (hw.memories.oam[m]?).getD 0xFF
    rw [Vector.getElem?_eq_getElem inside, Vector.getElem?_eq_getElem inside, kept]
  · exact hw.load_withSprites _ fun m found => sprite ⟨m, found⟩

/-- Before the first move sprite memory is as it was. -/
theorem spritesCopied_zero (hw : Hardware) (page : UInt8) :
    hw.spritesCopied page 0 = hw.memories.oam := by
  apply Vector.ext
  intro i bound
  simp [spritesCopied]

/-- One more move copies one more byte. -/
theorem spritesCopied_succ (hw : Hardware) (page : UInt8) (n : Nat) :
    (hw.spritesCopied page n).setIfInBounds n (hw.load (hw.spriteSource page n)) =
      hw.spritesCopied page (n + 1) := by
  apply Vector.ext
  intro i bound
  simp only [Vector.getElem_setIfInBounds, spritesCopied, Vector.getElem_ofFn]
  grind

/-- The first moves of a copy of a page. -/
def firstMoves (hw : Hardware) (page : UInt8) (n : Nat) : List Move :=
  (List.range n).map fun i => { destination := .oam i, source := hw.spriteSource page i }

/-- The moves of a sprite copy are the first 160. -/
theorem spriteMoves_eq (hw : Hardware) (page : UInt8) :
    hw.spriteMoves page = hw.firstMoves page 0xA0 := by
  simp only [spriteMoves, firstMoves, spriteSource, word_add_ofNat]

/-- One more move comes after those before it. -/
theorem firstMoves_succ (hw : Hardware) (page : UInt8) (n : Nat) :
    hw.firstMoves page (n + 1) =
      hw.firstMoves page n ++ [{ destination := .oam n, source := hw.spriteSource page n }] := by
  simp [firstMoves, List.range_succ]

/-- A move into sprite memory changes one byte of it. -/
theorem carryOut_withSprites (hw : Hardware) (oam : Vector UInt8 0xA0) (n : Nat)
    (source : Place) :
    (hw.withSprites oam).carryOut { destination := .oam n, source } =
      hw.withSprites (oam.setIfInBounds n ((hw.withSprites oam).load source)) :=
  rfl

/-- One byte after another ends as all at once. -/
theorem foldl_carryOut_firstMoves (hw : Hardware) (page : UInt8) {n : Nat} (inside : n ≤ 0xA0) :
    (hw.firstMoves page n).foldl carryOut hw = hw.withSprites (hw.spritesCopied page n) := by
  induction n with
  | zero => rw [spritesCopied_zero]; rfl
  | succ n ih =>
    rw [firstMoves_succ, List.foldl_append, ih (Nat.le_of_succ_le inside), List.foldl_cons,
      List.foldl_nil, carryOut_withSprites, hw.load_spriteSource page inside, spritesCopied_succ]

/-! ## The origins -/

/-- The ledger when the first moves of a copy of a page have been booked. -/
def booked (hw : Hardware) (page : UInt8) (ledger : Ledger) (n : Nat) : Ledger :=
  (hw.firstMoves page n).foldl
    (fun ledger move => ledger.link hw.present move.destination move.source) ledger

/-- One more move links one more byte. -/
theorem booked_succ (hw : Hardware) (page : UInt8) (ledger : Ledger) (n : Nat) :
    hw.booked page ledger (n + 1) =
      (hw.booked page ledger n).link hw.present (.oam n) (hw.spriteSource page n) := by
  rw [booked, firstMoves_succ, List.foldl_append]
  rfl

/-- A byte of sprite memory shares its home with no other place. -/
theorem home_eq_oam {place : Place} {n : Nat} :
    place.home = (Place.oam n).home ↔ place = .oam n := by
  cases place <;> simp [Place.home]

/-- Sprite memory has 160 bytes. -/
theorem present_oam (hw : Hardware) {n : Nat} (inside : n < 0xA0) :
    hw.present (.oam n) = true := by
  simp [present, byte?, inside]

/-- The bytes that have arrived have the origin that their sources had before, and no other origin
has changed. -/
theorem origin_booked (hw : Hardware) (page : UInt8) (ledger : Ledger) {n : Nat}
    (inside : n ≤ 0xA0) :
    (∀ i < n, ((hw.booked page ledger n).note (.oam i)).origin =
        some (ledger.root hw.present (hw.spriteSource page i))) ∧
      ∀ place, (∀ i < n, place ≠ .oam i) →
        ((hw.booked page ledger n).note place).origin = (ledger.note place).origin := by
  induction n with
  | zero => exact ⟨fun i none => absurd none (Nat.not_lt_zero i), fun _ _ => rfl⟩
  | succ n ih =>
    obtain ⟨arrived, others⟩ := ih (Nat.le_of_succ_le inside)
    have here := hw.present_oam inside
    have same : (hw.booked page ledger n).root hw.present (hw.spriteSource page n) =
        ledger.root hw.present (hw.spriteSource page n) := by
      have untouched : ∀ i < n, hw.spriteSource page n ≠ .oam i := by
        intro i earlier found
        have := spriteSource_eq_oam inside found
        omega
      simp only [Ledger.root, Ledger.origin?, others _ untouched]
    have step (place : Place) : ((hw.booked page ledger (n + 1)).note place).origin =
        if place = .oam n then some (ledger.root hw.present (hw.spriteSource page n))
        else ((hw.booked page ledger n).note place).origin := by
      rw [booked_succ, Ledger.origin_link _ _ _ here (by simp), same]
      simp only [home_eq_oam]
    constructor
    · intro i within
      rw [step]
      by_cases last : i = n
      · rw [if_pos (congrArg Place.oam last), last]
      · rw [if_neg fun found => last (Place.oam.inj found)]
        exact arrived i (by omega)
    · intro place elsewhere
      rw [step, if_neg (elsewhere n (Nat.lt_succ_self n))]
      exact others place fun i within => elsewhere i (Nat.lt_succ_of_lt within)

/-! ## The store -/

/-- The hardware with a page in the sprite table and its number in the register. -/
def withPage (hw : Hardware) (page : UInt8) : Hardware :=
  { hw with
    memories :=
      { hw.memories with
        oam := Vector.ofFn fun i => hw.load (hw.spriteSource page i)
        io := hw.memories.io.set 0x46 page } }

/-- A store to the copy register copies the page. -/
theorem store_page (hw : Hardware) (page : UInt8) :
    hw.store (.io 0x46) page = hw.withPage page := by
  have all : hw.spritesCopied page 0xA0 =
      Vector.ofFn fun i => hw.load (hw.spriteSource page i) := by
    apply Vector.ext
    intro i bound
    simp [spritesCopied]
  have copied : hw.store (.io 0x46) page =
      ((hw.spriteMoves page).foldl carryOut hw).setStored .dma page := rfl
  rw [copied, spriteMoves_eq, foldl_carryOut_firstMoves hw page (Nat.le_refl _), all]
  unfold setStored withSprites withPage
  dsimp only
  congr 1

/-- The trail of a store to the copy register books 160 links. -/
theorem trail_page (hw : Hardware) (page : UInt8) (ledger : Ledger) :
    hw.trail (.io 0x46) page ledger = hw.booked page ledger 0xA0 := by
  have moved : hw.moves (.io 0x46) page = hw.spriteMoves page := rfl
  unfold trail
  dsimp only
  rw [moved, spriteMoves_eq]
  rfl

/-- The copy leaves every byte where it is, whatever it holds. -/
theorem present_withPage (hw : Hardware) (page : UInt8) (place : Place) :
    (hw.withPage page).present place = hw.present place := by
  cases place with
  | oam n | io n =>
    rw [Bool.eq_iff_iff]
    simp [present, byte?, withPage]
  | _ => simp only [present, byte?, withPage]

/-- The address of a byte of the sprite table. -/
theorem resolve_spriteAddress (hw : Hardware) {i : Nat} (inside : i < 0xA0) :
    hw.resolve (0xFE00 + UInt16.ofNat i) = .oam i := by
  have address : (0xFE00 + UInt16.ofNat i).toNat = 0xFE00 + i :=
    toNat_add_ofNat 0xFE00 (by show 0xFE00 + i < 0x10000; omega)
  have window : 0xFE00 ≤ 0xFE00 + UInt16.ofNat i ∧ 0xFE00 + UInt16.ofNat i < 0xFEA0 :=
    window_add_ofNat (Nat.add_lt_add_left inside _)
  rw [resolve_oam _ window, address, Nat.add_sub_cancel_left]

/-- What is seen of the page in the sprite table. -/
theorem read_withPage_oam (hw : Hardware) (page : UInt8) {i : Nat} (inside : i < 0xA0) :
    AddressSpace.read (hw.withPage page) (0xFE00 + UInt16.ofNat i) =
      hw.load (hw.spriteSource page i) := by
  rw [read_of_resolve ((hw.withPage page).resolve_spriteAddress inside)]
  simp [load, byte?, withPage, inside]

/-- The copy register reads as the page. -/
theorem read_withPage_register (hw : Hardware) (page : UInt8) :
    AddressSpace.read (hw.withPage page) 0xFF46 = page := by
  have register : AddressSpace.read (hw.withPage page) 0xFF46 =
      (hw.withPage page).load (.io 0x46) := rfl
  rw [register]
  simp [load, withPage, DeviceRegister.ofOffset?, registerShows]

end Hardware

namespace System

open Hardware

/-- A processor that stores to the copy register copies the page and books its links. -/
theorem store_page (s : System Hardware) (page : UInt8) :
    s.store (s.resolve 0xFF46) page =
      { s with bus := s.bus.withPage page, ledger := s.bus.booked page s.ledger 0xA0 } := by
  rw [← Hardware.store_page, ← trail_page]
  rfl

/-- Behind the bus the processor finds the bytes that the bus keeps. -/
theorem present_bus (hw : Hardware) {place : Place} (other : ∀ r, place ≠ .register r) :
    present hw place = hw.present place := by
  cases place with
  | register r => exact absurd rfl (other r)
  | _ => rfl

/-- Which places hold a byte is the same before and after. -/
theorem present_withPage (hw : Hardware) (page : UInt8) (place : Place) :
    present (hw.withPage page) place = present hw place := by
  by_cases register : ∃ r, place = .register r
  · obtain ⟨r, rfl⟩ := register
    simp only [present]
  · have other : ∀ r, place ≠ .register r := fun r found => register ⟨r, found⟩
    rw [present_bus _ other, present_bus _ other, hw.present_withPage]

/-- A copy on the bus looks at a source as the processor does. -/
theorem root_spriteSource (s : System Hardware) (page : UInt8) (i : Nat) :
    s.ledger.root s.bus.present (s.bus.spriteSource page i) =
      (s.origin? (s.bus.spriteSource page i)).getD (s.bus.spriteSource page i) := by
  have other := s.bus.resolve_ne_register (pageAddress page i)
  unfold Ledger.root origin? Ledger.origin? spriteSource
  rw [present_bus _ other]

/-- A store to the register at FF46 copies a page into the sprite table as if all its bytes were
read first, whatever lies in the page. Each byte then has the origin that its source had, or else
the source itself for its origin. The register holds the page, and nothing else has changed: not
the hardware, not the processor, not the journal, and no other origin. -/
theorem sprite_copy_is_simultaneous (s : System Hardware) (page : UInt8) :
    let next := s.store (s.resolve 0xFF46) page
    let address (i : Nat) := UInt16.ofNat (page.toNat * 256 + i)
    (∀ i < 0xA0,
      AddressSpace.read next.bus (0xFE00 + UInt16.ofNat i) = AddressSpace.read s.bus (address i) ∧
        next.origin? (.oam i) =
          some ((s.origin? (s.resolve (address i))).getD (s.resolve (address i)))) ∧
      AddressSpace.read next.bus 0xFF46 = page ∧
      next.bus =
        { s.bus with
          memories :=
            { s.bus.memories with
              oam := Vector.ofFn fun i => AddressSpace.read s.bus (address i)
              io := s.bus.memories.io.set 0x46 page } } ∧
      (∀ place, (∀ i < 0xA0, place ≠ .oam i) → next.origin? place = s.origin? place) ∧
      next.cpu = s.cpu ∧ next.journal = s.journal := by
  intro next address
  have stored : next =
      { s with bus := s.bus.withPage page, ledger := s.bus.booked page s.ledger 0xA0 } :=
    s.store_page page
  obtain ⟨arrived, others⟩ := s.bus.origin_booked page s.ledger (Nat.le_refl 0xA0)
  rw [stored]
  refine ⟨?_, s.bus.read_withPage_register page, rfl, ?_, rfl, rfl⟩
  · intro i inside
    refine ⟨s.bus.read_withPage_oam page inside, ?_⟩
    have here : present s.bus (.oam i) = true := s.bus.present_oam inside
    show Ledger.origin? _ (present (s.bus.withPage page)) _ = _
    rw [Ledger.origin?, present_withPage, if_pos here, arrived i inside, root_spriteSource]
    rfl
  · intro place elsewhere
    show Ledger.origin? _ (present (s.bus.withPage page)) _ = Ledger.origin? _ _ _
    rw [Ledger.origin?, Ledger.origin?, present_withPage, others place elsewhere]

end System

end Handheld
