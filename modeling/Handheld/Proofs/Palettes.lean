import Mathlib.Data.List.Induction
import Mathlib.Logic.Function.Iterate
import Handheld.Proofs.Registers

/-!
# Streaming a palette

A program writes a palette through two registers: it stores a selector to one, and then one byte
after another to the other. If bit 7 of the selector is set, the selector moves on with each byte
and begins again after the last byte of the palette. So the bytes go around the palette as often as
they last, and each byte of the palette is the last that came there. If bit 7 is clear, they all go
to one place. Either way nothing else is reached but the two registers themselves.
-/

set_option autoImplicit false

namespace Handheld

namespace Hardware

/-! ## The selector -/

/-- The selector that moves on, after so many bytes from the first of the palette. -/
def movingSelector (n : Nat) : UInt8 := 0x80 ||| UInt8.ofNat (n % 64)

/-- A selector that moves on chooses the next byte. -/
theorem nextSelector_moving (n : Nat) :
    nextSelector (movingSelector n) = movingSelector (n + 1) := by
  have each : ∀ i : Fin 64,
      nextSelector (0x80 ||| UInt8.ofNat i) = 0x80 ||| UInt8.ofNat ((i + 1) % 64) := by
    decide
  have here := each ⟨n % 64, Nat.mod_lt _ (by decide)⟩
  rwa [show (n % 64 + 1) % 64 = (n + 1) % 64 by omega] at here

/-- A selector that moves on so many times chooses the byte so much further on. -/
theorem iterate_nextSelector_moving (i p : Nat) :
    nextSelector^[p] (movingSelector i) = movingSelector (i + p) := by
  induction p with
  | zero => rfl
  | succ p ih => rw [Function.iterate_succ_apply', ih, nextSelector_moving, Nat.add_assoc]

/-- The chosen byte is told by the low six bits. -/
theorem val_paletteIndex (selector : UInt8) :
    (paletteIndex selector).val = (selector &&& 0x3F).toNat :=
  (toNat_and_low selector 6 rfl).symm

/-- A selector that moves on goes round the 64 bytes. -/
theorem paletteIndex_moving (n : Nat) : (paletteIndex (movingSelector n)).val = n % 64 := by
  have each : ∀ i : Fin 64, (paletteIndex (0x80 ||| UInt8.ofNat i)).val = i := by decide
  exact each ⟨n % 64, Nat.mod_lt _ (by decide)⟩

/-- Without bit 7 the selector stays. -/
theorem iterate_nextSelector_fixed {selector : UInt8} (fixed : selector &&& 0x80 = 0) (p : Nat) :
    nextSelector^[p] selector = selector := by
  apply Function.iterate_fixed
  simp [nextSelector, fixed]

/-! ## The bytes -/

/-- The last of the bytes at chosen positions. -/
def lastAt (bytes : List UInt8) (chosen : Nat → Bool) : Option UInt8 :=
  (bytes.zipIdx.filter fun entry => chosen entry.2).getLast?.map Prod.fst

/-- One more byte is the last one at the positions that choose it. -/
theorem lastAt_concat (bytes : List UInt8) (value : UInt8) (chosen : Nat → Bool) :
    lastAt (bytes ++ [value]) chosen =
      if chosen bytes.length then some value else lastAt bytes chosen := by
  cases here : chosen bytes.length <;> simp [lastAt, List.zipIdx_append, here]

/-- If every position is chosen it is the last byte of all. -/
theorem lastAt_all (bytes : List UInt8) : lastAt bytes (fun _ => true) = bytes.getLast? := by
  induction bytes using List.reverseRecOn with
  | nil => rfl
  | append_singleton bytes value _ => simp [lastAt_concat]

/-- Without a choice there is no last byte. -/
theorem lastAt_none (bytes : List UInt8) : lastAt bytes (fun _ => false) = none := by
  simp [lastAt]

/-! ## The stream -/

/-- The hardware with other bytes in a palette and in the two registers of it. -/
def withStream (hw : Hardware) (palette : ColorPalette) (bytes : Vector UInt8 0x40)
    (selector data : UInt8) : Hardware :=
  ((hw.withPalette palette bytes).setStored palette.selector selector).setStored palette.data data

/-- A palette with its own bytes is as it was. -/
theorem withPalette_self (hw : Hardware) (palette : ColorPalette) :
    hw.withPalette palette (palette.bytes hw) = hw := by
  cases palette <;> rfl

/-- Of two palettes that are put in, the second stays. -/
theorem withPalette_withStream (hw : Hardware) (palette : ColorPalette)
    (first second : Vector UInt8 0x40) (selector data : UInt8) :
    (hw.withStream palette first selector data).withPalette palette second =
      hw.withStream palette second selector data := by
  cases palette <;> rfl

/-- The bytes that were streamed are those of the palette. -/
theorem bytes_withStream (hw : Hardware) (palette : ColorPalette) (bytes : Vector UInt8 0x40)
    (selector data : UInt8) :
    palette.bytes (hw.withStream palette bytes selector data) = bytes := by
  cases palette <;> rfl

/-- The selector is the one after the stream. -/
theorem stored_selector_withStream (hw : Hardware) (palette : ColorPalette)
    (bytes : Vector UInt8 0x40) (selector data : UInt8) :
    (hw.withStream palette bytes selector data).stored palette.selector = selector := by
  rw [withStream, stored_setStored, if_neg palette.selector_ne_data.symm, stored_setStored,
    if_pos rfl]

/-- The data register keeps the last byte of the stream. -/
theorem stored_data_withStream (hw : Hardware) (palette : ColorPalette)
    (bytes : Vector UInt8 0x40) (selector data : UInt8) :
    (hw.withStream palette bytes selector data).stored palette.data = data := by
  rw [withStream, stored_setStored, if_pos rfl]

/-- Storing a selector touches the palette in no other way. -/
theorem setStored_selector (hw : Hardware) (palette : ColorPalette) (selector : UInt8) :
    hw.setStored palette.selector selector =
      hw.withStream palette (palette.bytes hw) selector (hw.stored palette.data) := by
  have kept : (hw.setStored palette.selector selector).stored palette.data =
      hw.stored palette.data := by
    rw [stored_setStored, if_neg palette.selector_ne_data]
  rw [withStream, withPalette_self, setStored_of_stored kept]

/-- A byte goes where the selector says, and the selector moves on. -/
theorem take_data_withStream (hw : Hardware) (palette : ColorPalette) (bytes : Vector UInt8 0x40)
    (selector data value : UInt8) :
    (hw.withStream palette bytes selector data).take
        ⟨registerAddress palette.data.offset, value⟩ =
      hw.withStream palette (bytes.set (paletteIndex selector) value) (nextSelector selector)
        value := by
  simp only [take_data, stored_selector_withStream, bytes_withStream, withPalette_withStream]
  unfold withStream
  rw [setStored_comm _ palette.selector_ne_data.symm, setStored_setStored, setStored_setStored]

/-- The hardware when a selector has been stored, and then one byte after another. -/
def stream (hw : Hardware) (palette : ColorPalette) (selector : UInt8) (bytes : List UInt8) :
    Hardware :=
  (bytes.map fun value => BusWrite.mk (registerAddress palette.data.offset) value).foldl take
    (hw.take ⟨registerAddress palette.selector.offset, selector⟩)

/-- One more byte of a stream is one more write to the data register. -/
theorem stream_concat (hw : Hardware) (palette : ColorPalette) (selector : UInt8)
    (bytes : List UInt8) (value : UInt8) :
    hw.stream palette selector (bytes ++ [value]) =
      (hw.stream palette selector bytes).take
        ⟨registerAddress palette.data.offset, value⟩ := by
  simp [stream]

/-- The palette after a stream. -/
def streamed (hw : Hardware) (palette : ColorPalette) (selector : UInt8) (bytes : List UInt8) :
    Vector UInt8 0x40 :=
  Vector.ofFn fun j =>
    (lastAt bytes fun p => paletteIndex (nextSelector^[p] selector) == j).getD
      (palette.bytes hw)[j]

/-- One more byte of a stream goes where the selector has moved to. -/
theorem streamed_concat (hw : Hardware) (palette : ColorPalette) (selector : UInt8)
    (bytes : List UInt8) (value : UInt8) :
    hw.streamed palette selector (bytes ++ [value]) =
      (hw.streamed palette selector bytes).set
        (paletteIndex (nextSelector^[bytes.length] selector)) value := by
  apply Vector.ext
  intro j bound
  simp only [streamed, lastAt_concat, Vector.getElem_ofFn, Vector.getElem_set, beq_iff_eq,
    Fin.ext_iff]
  split <;> rfl

/-- A stream changes the palette, its selector and its data register. -/
theorem stream_eq (hw : Hardware) (palette : ColorPalette) (selector : UInt8)
    (bytes : List UInt8) :
    hw.stream palette selector bytes =
      hw.withStream palette (hw.streamed palette selector bytes)
        (nextSelector^[bytes.length] selector)
        (bytes.getLast?.getD (hw.stored palette.data)) := by
  induction bytes using List.reverseRecOn with
  | nil =>
    have first : hw.streamed palette selector [] = palette.bytes hw := Vector.ofFn_getElem
    rw [first]
    exact (hw.take_selector palette selector).trans (hw.setStored_selector palette selector)
  | append_singleton bytes value ih =>
    rw [stream_concat, ih, take_data_withStream, streamed_concat, List.length_append,
      List.length_singleton, Function.iterate_succ_apply', List.getLast?_concat, Option.getD_some]

/-! ## What a stream leaves alone -/

/-- A stream leaves all other places alone. -/
theorem load_withStream (hw : Hardware) (palette : ColorPalette) (bytes : Vector UInt8 0x40)
    (selector data : UInt8) {place : Place} (apart : place ≠ .io palette.selector.offset)
    (distinct : place ≠ .io palette.data.offset) :
    (hw.withStream palette bytes selector data).load place = hw.load place := by
  cases place with
  | io m =>
    have other : m ≠ palette.data.offset := fun same => distinct (congrArg Place.io same)
    have uncoupled : ¬ Coupled palette.data.offset m := by
      rw [coupled_data_iff]
      exact fun same => apart (congrArg Place.io same)
    rw [withStream, load_setStored_of_uncoupled _ _ other uncoupled,
      load_writePalette _ _ _ _ other uncoupled]
  | _ => cases palette <;> rfl

/-- A stream does not change what addresses stand for. -/
theorem resolve_withStream (hw : Hardware) (palette : ColorPalette) (bytes : Vector UInt8 0x40)
    (selector data : UInt8) (address : UInt16) :
    (hw.withStream palette bytes selector data).resolve address = hw.resolve address := by
  cases palette <;>
    exact (resolve_setStored _ _ (by decide) (by decide) (by decide) _).trans
      (resolve_setStored _ _ (by decide) (by decide) (by decide) _)

/-- A stream leaves all other reads alone. -/
theorem read_withStream (hw : Hardware) (palette : ColorPalette) (bytes : Vector UInt8 0x40)
    (selector data : UInt8) {address : UInt16}
    (apart : address ≠ registerAddress palette.selector.offset)
    (distinct : address ≠ registerAddress palette.data.offset) :
    AddressSpace.read (hw.withStream palette bytes selector data) address =
      AddressSpace.read hw address := by
  rw [read_of_resolve (hw.resolve_withStream palette bytes selector data address)]
  refine hw.load_withStream palette bytes selector data ?_ ?_
  · exact fun found => apart (eq_registerAddress found)
  · exact fun found => distinct (eq_registerAddress found)

/-- A stream into one palette leaves the other alone. -/
theorem bytes_withStream_of_ne (hw : Hardware) {palette other : ColorPalette}
    (differs : other ≠ palette) (bytes : Vector UInt8 0x40) (selector data : UInt8) :
    other.bytes (hw.withStream palette bytes selector data) = other.bytes hw := by
  cases palette <;> cases other <;> first | rfl | exact absurd rfl differs

/-! ## Both kinds of selectors -/

/-- With bit 7 set the bytes go around the palette. -/
theorem streamed_moving (hw : Hardware) (palette : ColorPalette) (i : Fin 64)
    (bytes : List UInt8) (j : Fin 64) :
    (hw.streamed palette (movingSelector i) bytes)[j] =
      (lastAt bytes fun p => (i + p) % 64 == j).getD (palette.bytes hw)[j] := by
  have chosen (p : Nat) :
      (paletteIndex (nextSelector^[p] (movingSelector i)) == j) = ((i + p) % 64 == j.val) := by
    rw [iterate_nextSelector_moving, Bool.eq_iff_iff, beq_iff_eq, beq_iff_eq, Fin.ext_iff,
      paletteIndex_moving]
  show (Vector.ofFn _)[j.val] = _
  simp only [Vector.getElem_ofFn, chosen, Fin.getElem_fin]

/-- With bit 7 clear they all go to one place. -/
theorem streamed_fixed (hw : Hardware) (palette : ColorPalette) {selector : UInt8}
    (fixed : selector &&& 0x80 = 0) (bytes : List UInt8) (j : Fin 64) :
    (hw.streamed palette selector bytes)[j] =
      if j = (selector &&& 0x3F).toNat then bytes.getLast?.getD (palette.bytes hw)[j]
      else (palette.bytes hw)[j] := by
  have chosen (p : Nat) : (paletteIndex (nextSelector^[p] selector) == j) =
      decide (j.val = (selector &&& 0x3F).toNat) := by
    rw [iterate_nextSelector_fixed fixed, Bool.eq_iff_iff, beq_iff_eq, decide_eq_true_iff,
      ← val_paletteIndex, Fin.ext_iff, eq_comm]
  show (Vector.ofFn _)[j.val] = _
  simp only [Vector.getElem_ofFn, chosen, Fin.getElem_fin]
  by_cases here : j.val = (selector &&& 0x3F).toNat
  · rw [if_pos here, decide_eq_true here, lastAt_all]
  · rw [if_neg here, decide_eq_false here, lastAt_none, Option.getD_none]

/-- A program that stores a selector and then any number of bytes to a palette finds the bytes where
the selector led them. With bit 7 set they go around the palette from where the selector starts, so
each byte of the palette is the last that came there, and the selector ends where the next would go.
With bit 7 clear the selector stays, and only the last byte is left of them all. Nothing else is
reached: not the other palette, and not what is read at any other address. -/
theorem palette_streaming (hw : Hardware) (palette : ColorPalette) (bytes : List UInt8) :
    (∀ i : Fin 64,
      let next := hw.stream palette (0x80 ||| UInt8.ofNat i) bytes
      (∀ j : Fin 64, (palette.bytes next)[j] =
        (lastAt bytes fun p => (i + p) % 64 == j).getD (palette.bytes hw)[j]) ∧
      AddressSpace.read next (registerAddress palette.selector.offset) =
        0x80 ||| UInt8.ofNat ((i + bytes.length) % 64)) ∧
    (∀ selector : UInt8, selector &&& 0x80 = 0 →
      let next := hw.stream palette selector bytes
      (∀ j : Fin 64, (palette.bytes next)[j] =
        if j = (selector &&& 0x3F).toNat then bytes.getLast?.getD (palette.bytes hw)[j]
        else (palette.bytes hw)[j]) ∧
      AddressSpace.read next (registerAddress palette.selector.offset) = selector) ∧
    ∀ selector : UInt8,
      let next := hw.stream palette selector bytes
      next = hw.withStream palette (palette.bytes next) (next.stored palette.selector)
        (next.stored palette.data) ∧
      (∀ other, other ≠ palette → other.bytes next = other.bytes hw) ∧
      ∀ address, address ≠ registerAddress palette.selector.offset →
        address ≠ registerAddress palette.data.offset →
        AddressSpace.read next address = AddressSpace.read hw address := by
  refine ⟨?_, ?_, ?_⟩
  · intro i next
    have first : 0x80 ||| UInt8.ofNat i = movingSelector i := by
      rw [movingSelector, Nat.mod_eq_of_lt i.isLt]
    have ended : next = _ := hw.stream_eq palette (0x80 ||| UInt8.ofNat i) bytes
    rw [first] at ended
    refine ⟨?_, ?_⟩
    · intro j
      rw [ended, bytes_withStream, streamed_moving]
    · rw [read_selector, ended, stored_selector_withStream, iterate_nextSelector_moving]
      rfl
  · intro selector fixed next
    have ended : next = _ := hw.stream_eq palette selector bytes
    refine ⟨?_, ?_⟩
    · intro j
      rw [ended, bytes_withStream, streamed_fixed _ _ fixed]
    · rw [read_selector, ended, stored_selector_withStream, iterate_nextSelector_fixed fixed]
  · intro selector next
    have ended : next = _ := hw.stream_eq palette selector bytes
    refine ⟨?_, ?_, ?_⟩
    · rw [ended, bytes_withStream, stored_selector_withStream, stored_data_withStream]
    · intro other differs
      rw [ended, bytes_withStream_of_ne _ differs]
    · intro address apart distinct
      rw [ended, read_withStream _ _ _ _ _ apart distinct]

/-- Three bytes from the last of the sprite palettes go on at the first, and in a place that stays
the third is left. -/
theorem palette_streaming_of_three :
    let hw := assemble .empty #[]
    let around := hw.stream .sprites 0xBF [1, 2, 3]
    let inPlace := hw.stream .sprites 0x45 [1, 2, 3]
    ((ColorPalette.sprites.bytes around)[0x3F] = 1 ∧ (ColorPalette.sprites.bytes around)[0] = 2 ∧
      AddressSpace.read around (registerAddress 0x6A) = 0x82) ∧
    ((ColorPalette.sprites.bytes inPlace)[5] = 3 ∧
      AddressSpace.read inPlace (registerAddress 0x6A) = 0x45) := by
  intro hw around inPlace
  obtain ⟨moving, fixed, -⟩ := hw.palette_streaming .sprites [1, 2, 3]
  obtain ⟨entries, selector⟩ := moving 63
  obtain ⟨entry, same⟩ := fixed 0x45 (by decide)
  exact ⟨⟨entries 63, entries 0, selector⟩, entry 5, same⟩

end Hardware

end Handheld
