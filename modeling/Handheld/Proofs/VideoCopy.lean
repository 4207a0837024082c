import Handheld.Proofs.Registers
import Handheld.Proofs.Word

/-!
# A copy into video RAM

In color mode a store to the register at FF55 copies blocks of sixteen bytes into the bank of video
RAM in the window. The destination goes around within the bank, and even the longest copy is shorter
than a bank, so each byte has a place of its own there (`videoTarget_injective`). If no byte comes
from video RAM itself, none is overwritten before it is copied. So what has arrived after any number
of bytes is what was read at their sources at first, and the rest of video RAM is as it was
(`Copied`).
-/

set_option autoImplicit false

namespace Handheld

namespace Hardware

/-! ## Where the bytes go -/

/-- How far from the start of a bank the first byte goes. -/
def videoOffset (hw : Hardware) : Nat :=
  (word (hw.stored .hdma3) (hw.stored .hdma4) &&& 0x1FF0).toNat

/-- The index in video RAM to which a byte goes. -/
def videoTarget (hw : Hardware) (i : Nat) : Nat :=
  hw.vramBank * 0x2000 + (hw.videoOffset + i) % 0x2000

/-- Every byte of a video copy arrives inside the two banks of video RAM. -/
theorem videoTarget_lt (hw : Hardware) (i : Nat) : hw.videoTarget i < 0x4000 := by
  have bank := hw.vramBank_le
  unfold videoTarget
  omega

/-- Two bytes that are no more than a bank apart arrive at different places. -/
theorem videoTarget_injective (hw : Hardware) {i j : Nat} (first : i < 0x2000) (second : j < 0x2000)
    (same : hw.videoTarget i = hw.videoTarget j) : i = j := by
  unfold videoTarget at same
  omega

/-- The longest copy is of 128 blocks. -/
theorem videoLength_le (control : UInt8) : videoLength control ≤ 0x800 := by
  have blocks : (control &&& 0x7F).toNat < 0x80 := by
    rw [toNat_and_low control 7 rfl]
    exact Nat.mod_lt _ (by decide)
  unfold videoLength
  omega

/-- The destination registers name the offset at which the copy begins. -/
theorem toNat_videoDestination (hw : Hardware) :
    hw.videoDestination.toNat % 0x2000 = hw.videoOffset := by
  have inside : word (hw.stored .hdma3) (hw.stored .hdma4) &&& 0x1FF0 =
      (word (hw.stored .hdma3) (hw.stored .hdma4) &&& 0x1FF0) &&& 0x1FFF := by
    rw [UInt16.and_assoc]
    rfl
  have below : hw.videoOffset < 0x2000 := by
    unfold videoOffset
    rw [UInt16.toNat_and]
    exact Nat.lt_of_le_of_lt Nat.and_le_right (by decide)
  unfold videoDestination
  rw [inside, toNat_videoAddress]
  unfold videoOffset at below ⊢
  omega

/-- An address that is forced into the window of video RAM stands for a byte of the selected bank.
-/
theorem resolve_videoAddress (hw : Hardware) (address : UInt16) :
    hw.resolve (0x8000 ||| (address &&& 0x1FFF)) =
      .vram (hw.vramBank * 0x2000 + address.toNat % 0x2000) := by
  rw [hw.resolve_vram (videoAddress_window address), toNat_videoAddress]
  congr 2
  omega

/-- The address from which a byte comes. -/
def videoByte (hw : Hardware) (i : Nat) : UInt16 := hw.videoSource + UInt16.ofNat i

/-- The first moves of a copy. -/
def firstVideoMoves (hw : Hardware) (n : Nat) : List Move :=
  (List.range n).map fun i =>
    { destination := .vram (hw.videoTarget i), source := hw.resolve (hw.videoByte i) }

/-- The moves of a video copy are as many first moves as its control byte asks for. -/
theorem videoMoves_eq (hw : Hardware) (control : UInt8) :
    hw.videoMoves control = hw.firstVideoMoves (videoLength control) := by
  unfold videoMoves firstVideoMoves
  apply List.map_congr_left
  intro i within
  have inside : i < 0x800 :=
    Nat.lt_of_lt_of_le (List.mem_range.mp within) (videoLength_le control)
  have offset : (hw.videoDestination + UInt16.ofNat i).toNat % 0x2000 =
      (hw.videoOffset + i) % 0x2000 := by
    have small : i < UInt16.size := Nat.lt_trans inside (by decide)
    have start := hw.toNat_videoDestination
    rw [UInt16.toNat_add, UInt16.toNat_ofNat_of_lt' small]
    show (hw.videoDestination.toNat + i) % 65536 % 0x2000 = _
    omega
  rw [resolve_videoAddress, offset]
  rfl

/-! ## The bytes -/

/-- The hardware with another video RAM. -/
def withVideo (hw : Hardware) (vram : Vector UInt8 0x4000) : Hardware :=
  { hw with memories := { hw.memories with vram } }

/-- Video RAM shows in its own places only. -/
theorem load_withVideo (hw : Hardware) (vram : Vector UInt8 0x4000) {place : Place}
    (elsewhere : ∀ n, place ≠ .vram n) : (hw.withVideo vram).load place = hw.load place := by
  refine load_congr ?_ ?_
  · cases place with
    | vram n => exact absurd rfl (elsewhere n)
    | _ => rfl
  · intro register stored
    cases register <;> rfl

/-- Video RAM answers in its own window only. -/
theorem window_of_resolve_vram {hw : Hardware} {address : UInt16} {n : Nat}
    (found : hw.resolve address = .vram n) : 0x8000 ≤ address ∧ address < 0xA000 := by
  grind [resolve, Cartridge.romPlace, Cartridge.sramPlace, wramPlace]

/-- The video RAM when so many bytes have been copied into it. -/
def videoCopied (hw : Hardware) : Nat → Vector UInt8 0x4000
  | 0 => hw.memories.vram
  | n + 1 =>
    (hw.videoCopied n).setIfInBounds (hw.videoTarget n) (AddressSpace.read hw (hw.videoByte n))

/-- One byte after another is read as it was at first. -/
theorem foldl_carryOut_firstVideoMoves (hw : Hardware) {n : Nat}
    (outside : ∀ i < n, ¬ (0x8000 ≤ hw.videoByte i ∧ hw.videoByte i < 0xA000)) :
    (hw.firstVideoMoves n).foldl carryOut hw = hw.withVideo (hw.videoCopied n) := by
  induction n with
  | zero => rfl
  | succ n ih =>
    have earlier := ih fun i within => outside i (Nat.lt_succ_of_lt within)
    have source : (hw.withVideo (hw.videoCopied n)).load (hw.resolve (hw.videoByte n)) =
        hw.load (hw.resolve (hw.videoByte n)) := by
      apply load_withVideo
      intro k found
      exact outside n (Nat.lt_succ_self n) (window_of_resolve_vram found)
    have last : hw.firstVideoMoves (n + 1) = hw.firstVideoMoves n ++
        [{ destination := .vram (hw.videoTarget n), source := hw.resolve (hw.videoByte n) }] := by
      simp [firstVideoMoves, List.range_succ]
    rw [last, List.foldl_append, earlier, List.foldl_cons, List.foldl_nil, carryOut, source]
    rfl

/-- What has arrived in video RAM, and what is as it was. -/
structure Copied (hw : Hardware) (n : Nat) (vram : Vector UInt8 0x4000) : Prop where
  arrived : ∀ i < n, vram[hw.videoTarget i]? = some (AddressSpace.read hw (hw.videoByte i))
  others : ∀ k, (∀ i < n, k ≠ hw.videoTarget i) → vram[k]? = hw.memories.vram[k]?

/-- A byte goes where none has gone before. -/
theorem copied_videoCopied (hw : Hardware) {n : Nat} (fits : n ≤ 0x2000) :
    hw.Copied n (hw.videoCopied n) := by
  induction n with
  | zero => exact ⟨fun i none => absurd none (Nat.not_lt_zero i), fun _ _ => rfl⟩
  | succ n ih =>
    obtain ⟨arrived, others⟩ := ih (Nat.le_of_succ_le fits)
    have kept : (hw.videoCopied n)[hw.videoTarget n]?.isSome = true := by
      simpa using hw.videoTarget_lt n
    have step (k : Nat) : (hw.videoCopied (n + 1))[k]? =
        if k = hw.videoTarget n then some (AddressSpace.read hw (hw.videoByte n))
        else (hw.videoCopied n)[k]? :=
      getElem?_replaced _ kept _ k
    constructor
    · intro i within
      rw [step]
      by_cases last : i = n
      · rw [if_pos (congrArg hw.videoTarget last), last]
      · rw [if_neg fun same => last (hw.videoTarget_injective (by omega) (by omega) same)]
        exact arrived i (by omega)
    · intro k elsewhere
      rw [step, if_neg (elsewhere n (Nat.lt_succ_self n))]
      exact others k fun i within => elsewhere i (Nat.lt_succ_of_lt within)

/-! ## The register -/

/-- The register shows the same byte whatever is kept in it. -/
theorem load_videoControl (hw : Hardware) (value : UInt8) (place : Place) :
    (hw.setStored .hdma5 value).load place = hw.load place := by
  cases place with
  | io m =>
    by_cases own : m = 0x55
    · subst own
      simp [load, setStored, DeviceRegister.ofOffset?, registerShows]
    · exact load_setStored_of_uncoupled _ _ own (not_coupled (by rintro (_ | _) <;> decide))
  | _ => rfl

/-- The control register of the copy decides about no read. -/
theorem read_videoControl (hw : Hardware) (value : UInt8) (address : UInt16) :
    AddressSpace.read (hw.setStored .hdma5 value) address = AddressSpace.read hw address := by
  have place := hw.resolve_setStored (r := .hdma5) value (by decide) (by decide) (by decide) address
  rw [read_of_resolve place, load_videoControl]
  rfl

/-- The control register of the copy reads as all ones. -/
theorem read_videoControl_self (hw : Hardware) : AddressSpace.read hw 0xFF55 = 0xFF := by
  show hw.load (.io 0x55) = 0xFF
  simp [load, DeviceRegister.ofOffset?, registerShows]

/-- A write to the control register carries out the copy and leaves all ones there. -/
theorem take_videoControl (hw : Hardware) (control : UInt8) :
    hw.take ⟨0xFF55, control⟩ = (hw.registerActs .hdma5 control).setStored .hdma5 0xFF :=
  hw.take_register (show 0x55 < 0x80 by decide) control

/-- Without color nothing is copied. -/
theorem take_monochrome {hw : Hardware} (mode : hw.color = false) (control : UInt8) :
    hw.take ⟨0xFF55, control⟩ = hw.setStored .hdma5 0xFF := by
  have acted : hw.registerActs .hdma5 control = hw := by
    simp [registerActs, mode]
  rw [take_videoControl, acted]

/-- In color mode a write to the control register copies the block into video RAM, if no byte of
it is taken from there. -/
theorem take_color {hw : Hardware} (mode : hw.color = true) (control : UInt8)
    (outside : ∀ i < videoLength control, ¬ (0x8000 ≤ hw.videoByte i ∧ hw.videoByte i < 0xA000)) :
    hw.take ⟨0xFF55, control⟩ =
      (hw.withVideo (hw.videoCopied (videoLength control))).setStored .hdma5 0xFF := by
  have acted : hw.registerActs .hdma5 control =
      hw.withVideo (hw.videoCopied (videoLength control)) := by
    rw [registerActs, if_pos mode, videoMoves_eq, hw.foldl_carryOut_firstVideoMoves outside]
  rw [take_videoControl, acted]

/-! ## The addresses -/

/-- An offset below 0x2000 stays inside the window of video RAM. -/
theorem toNat_videoWindow {offset : Nat} (inside : offset < 0x2000) :
    (0x8000 + UInt16.ofNat offset).toNat = 0x8000 + offset :=
  toNat_add_ofNat 0x8000 (by show 0x8000 + offset < 0x10000; omega)

/-- An address of the window of video RAM stands for the byte of the selected bank at its offset.
-/
theorem resolve_videoWindow (hw : Hardware) {offset : Nat} (inside : offset < 0x2000) :
    hw.resolve (0x8000 + UInt16.ofNat offset) = .vram (hw.vramBank * 0x2000 + offset) := by
  have window : 0x8000 ≤ 0x8000 + UInt16.ofNat offset ∧ 0x8000 + UInt16.ofNat offset < 0xA000 :=
    window_add_ofNat (Nat.add_lt_add_left inside _)
  rw [hw.resolve_vram window, toNat_videoWindow inside]
  congr 2
  omega

/-- Where a byte has arrived it is read. -/
theorem Copied.read_arrived {hw : Hardware} {n i : Nat} {vram : Vector UInt8 0x4000}
    (copied : hw.Copied n vram) (within : i < n) :
    AddressSpace.read (hw.withVideo vram) (0x8000 + UInt16.ofNat ((hw.videoOffset + i) % 0x2000)) =
      AddressSpace.read hw (hw.videoByte i) := by
  have place : (hw.withVideo vram).resolve _ = .vram (hw.videoTarget i) :=
    hw.resolve_videoWindow (Nat.mod_lt (hw.videoOffset + i) (by decide))
  rw [read_of_resolve place]
  show (vram[hw.videoTarget i]?).getD 0xFF = _
  rw [copied.arrived i within, Option.getD_some]

/-- Where no byte has gone nothing new is read. -/
theorem Copied.read_other {hw : Hardware} {n : Nat} {vram : Vector UInt8 0x4000}
    (copied : hw.Copied n vram) {address : UInt16}
    (elsewhere : ∀ i < n, address ≠ 0x8000 + UInt16.ofNat ((hw.videoOffset + i) % 0x2000)) :
    AddressSpace.read (hw.withVideo vram) address = AddressSpace.read hw address := by
  show (hw.withVideo vram).load (hw.resolve address) = hw.load (hw.resolve address)
  by_cases window : 0x8000 ≤ address ∧ address < 0xA000
  · have target : ∀ i < n,
        hw.vramBank * 0x2000 + address.toNat % 0x2000 ≠ hw.videoTarget i := by
      intro i within same
      refine elsewhere i within (UInt16.toNat_inj.mp ?_)
      rw [toNat_videoWindow (Nat.mod_lt _ (by decide))]
      have start := UInt16.le_iff_toNat_le.mp window.1
      have past := UInt16.lt_iff_toNat_lt.mp window.2
      simp only [UInt16.reduceToNat] at start past
      unfold videoTarget at same
      omega
    rw [hw.resolve_vram window]
    exact congrArg (Option.getD · 0xFF) (copied.others _ target)
  · exact hw.load_withVideo vram fun n found => window (window_of_resolve_vram found)

/-- A store to the register at FF55 copies what its control byte asks for in color mode, and in
monochrome mode nothing. The bytes come from the address in the two registers for the source, round
the end of the address space if need be, and go around the bank of video RAM in the window from the
offset in the two registers for the destination. If none of them comes from video RAM, each arrives
as it was read before the copy. No other byte of either bank has changed, and nothing else has: not
the hardware, and not what is read at any address to which no byte was copied. The register reads
as ever. -/
theorem video_copy (hw : Hardware) (control : UInt8) :
    let next := hw.take ⟨0xFF55, control⟩
    let source (i : Nat) :=
      (word (hw.stored .hdma1) (hw.stored .hdma2) &&& 0xFFF0) + UInt16.ofNat i
    let offset (i : Nat) :=
      ((word (hw.stored .hdma3) (hw.stored .hdma4) &&& 0x1FF0).toNat + i) % 0x2000
    let length := ((control &&& 0x7F).toNat + 1) * 16
    AddressSpace.read next 0xFF55 = 0xFF ∧
    (hw.color = false →
      next = { hw with memories := { hw.memories with io := hw.memories.io.set 0x55 0xFF } } ∧
      ∀ address, AddressSpace.read next address = AddressSpace.read hw address) ∧
    (hw.color = true → (∀ i < length, ¬ (0x8000 ≤ source i ∧ source i < 0xA000)) →
      (∀ i < length,
        next.memories.vram[hw.vramBank * 0x2000 + offset i]? =
            some (AddressSpace.read hw (source i)) ∧
          AddressSpace.read next (0x8000 + UInt16.ofNat (offset i)) =
            AddressSpace.read hw (source i)) ∧
      (∀ k, (∀ i < length, k ≠ hw.vramBank * 0x2000 + offset i) →
        next.memories.vram[k]? = hw.memories.vram[k]?) ∧
      next =
        { hw with
          memories :=
            { hw.memories with
              vram := next.memories.vram
              io := hw.memories.io.set 0x55 0xFF } } ∧
      ∀ address, (∀ i < length, address ≠ 0x8000 + UInt16.ofNat (offset i)) →
        AddressSpace.read next address = AddressSpace.read hw address) := by
  intro next source offset length
  refine ⟨next.read_videoControl_self, ?_, ?_⟩
  · intro mode
    have taken : next = hw.setStored .hdma5 0xFF := take_monochrome mode control
    rw [taken]
    exact ⟨rfl, hw.read_videoControl 0xFF⟩
  · intro mode outside
    have taken : next = (hw.withVideo (hw.videoCopied length)).setStored .hdma5 0xFF :=
      take_color mode control outside
    have copied : hw.Copied length (hw.videoCopied length) :=
      hw.copied_videoCopied (Nat.le_trans (videoLength_le control) (by decide))
    rw [taken]
    refine ⟨fun i within => ⟨copied.arrived i within, ?_⟩, copied.others, rfl, ?_⟩
    · rw [read_videoControl]
      exact copied.read_arrived within
    · intro address elsewhere
      rw [read_videoControl]
      exact copied.read_other elsewhere

/-- A copy of two blocks that starts sixteen bytes before the end of the address space and as many
before the end of a bank. -/
def roundTheEnds : Hardware :=
  [⟨0xFF51, 0xFF⟩, ⟨0xFF52, 0xF5⟩, ⟨0xFF53, 0xFF⟩, ⟨0xFF54, 0xF9⟩, ⟨0xFFF0, 0x12⟩].foldl take
    (assemble (.assemble { color := true } #[] .none) #[])

/-- The second block comes from the start of the address space and goes to the start of the bank.
In monochrome mode nothing is seen of a copy. -/
theorem video_copy_of_roundTheEnds :
    let hw := roundTheEnds
    let next := hw.take ⟨0xFF55, 0x01⟩
    AddressSpace.read next 0x9FF0 = 0x12 ∧
      AddressSpace.read next 0x8000 = AddressSpace.read hw 0x0000 ∧
      AddressSpace.read next 0x8010 = AddressSpace.read hw 0x8010 ∧
      AddressSpace.read ((assemble .empty #[]).take ⟨0xFF55, 0x01⟩) 0x9FF0 =
        AddressSpace.read (assemble .empty #[]) 0x9FF0 := by
  intro hw next
  obtain ⟨-, -, color⟩ := hw.video_copy 0x01
  obtain ⟨-, monochrome, -⟩ := (assemble .empty #[]).video_copy 0x01
  obtain ⟨arrived, -, -, others⟩ := color (by decide +kernel) (by decide +kernel)
  have first : AddressSpace.read hw 0xFFF0 = 0x12 := by decide +kernel
  have page : word (hw.stored .hdma3) (hw.stored .hdma4) &&& 0x1FF0 = 0x1FF0 := by decide +kernel
  have start : word (hw.stored .hdma1) (hw.stored .hdma2) &&& 0xFFF0 = 0xFFF0 := by decide +kernel
  rw [page, start] at arrived
  rw [page] at others
  exact ⟨(arrived 0 (by decide)).2.trans first, (arrived 16 (by decide)).2,
    others 0x8010 (by decide), (monochrome rfl).2 0x9FF0⟩

end Hardware

end Handheld
