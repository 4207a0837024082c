import Handheld.Proofs.Word
import Handheld.Proofs.Writes
import Mathlib.Data.Nat.Bitwise
import Mathlib.Logic.Function.Basic

/-!
# The ports of a bank controller

A controller that is made of plain registers is written to through a few ports in the ROM
area. What it shows afterwards depends on the byte last written to each port and on nothing
else: neither on the bytes before it nor on the order in which the ports were written to.
The numbers here are those of the data sheets, by remainders and products; the controllers
get by with masks and shifts. The difference is greatest for the fifth controller, which
keeps one number that is written in two parts.
-/

set_option autoImplicit false

namespace Handheld

/-- The controllers that are made of plain registers. -/
inductive Chip where
  | mbc1
  | mbc2
  | mbc3 (hasClock : Bool)
  | mbc5

/-- What a write to the ROM area may set. -/
inductive Port where
  /-- Whether RAM is open. -/
  | enable
  /-- The ROM bank, or its lower part. -/
  | bank
  /-- The upper part of the ROM bank. -/
  | bankHigh
  /-- The bank in the RAM window. -/
  | sramBank
  /-- Whether the upper part of the ROM bank chooses the other windows, too. -/
  | mode
  deriving DecidableEq

/-- What a port holds after power-on. -/
def Port.powerOn : Port → UInt8
  | .bank => 1
  | _ => 0

namespace Chip

/-- The kind of controller that a chip is. -/
def kind : Chip → ControllerKind
  | .mbc1 => .mbc1
  | .mbc2 => .mbc2
  | .mbc3 hasClock => if hasClock then .mbc3Clock else .mbc3
  | .mbc5 => .mbc5

/-- The port at an address of the ROM area. -/
def port? (chip : Chip) (address : UInt16) : Option Port :=
  match chip with
  | .mbc1 =>
    if address < 0x2000 then some .enable
    else if address < 0x4000 then some .bank
    else if address < 0x6000 then some .bankHigh
    else if address < 0x8000 then some .mode
    else none
  | .mbc2 =>
    if 0x4000 ≤ address then none
    else if address.toNat.testBit 8 then some .bank
    else some .enable
  | .mbc3 _ =>
    if address < 0x2000 then some .enable
    else if address < 0x4000 then some .bank
    else if address < 0x6000 then some .sramBank
    else none
  | .mbc5 =>
    if address < 0x2000 then some .enable
    else if address < 0x3000 then some .bank
    else if address < 0x4000 then some .bankHigh
    else if address < 0x6000 then some .sramBank
    else none

/-- The byte last written to a port. -/
def lastValue (chip : Chip) (writes : List BusWrite) (port : Port) : UInt8 :=
  (lastWritten (fun s _ => s) (fun _ => chip.port?) port () writes).getD port.powerOn

/-! ## What the ports select -/

variable (chip : Chip) (ports : Port → UInt8)

/-- The number of the bank in the upper ROM window. Where 0 is not to be had it stands for 1. -/
def romBank : Nat :=
  match chip with
  | .mbc1 => 32 * ((ports .bankHigh).toNat % 4) + max 1 ((ports .bank).toNat % 32)
  | .mbc2 => max 1 ((ports .bank).toNat % 16)
  | .mbc3 _ => (ports .bank).toNat
  | .mbc5 => 256 * ((ports .bankHigh).toNat % 2) + (ports .bank).toNat

/-- The number of the bank in the lower ROM window. -/
def lowerBank : Nat :=
  match chip with
  | .mbc1 => if (ports .mode).toNat % 2 = 1 then 32 * ((ports .bankHigh).toNat % 4) else 0
  | _ => 0

/-- The offset into ROM at which an address lands. -/
def romOffset (address : UInt16) : Nat :=
  let bank := if address < 0x4000 then chip.lowerBank ports else chip.romBank ports
  bank * 0x4000 + address.toNat % 0x4000

/-- Where an offset into the RAM window lands. -/
def sramSlot (offset : UInt16) : SramSlot :=
  match chip with
  | .mbc1 =>
    let bank := if (ports .mode).toNat % 2 = 1 then (ports .bankHigh).toNat % 4 else 0
    .ram (bank * 0x2000 + offset.toNat)
  | .mbc2 => .ram (offset.toNat % 0x200)
  | .mbc3 hasClock =>
    let select := (ports .sramBank).toNat
    if hasClock ∧ 0x08 ≤ select ∧ select ≤ 0x0C then .clock (select - 0x08)
    else .ram (select % 4 * 0x2000 + offset.toNat)
  | .mbc5 => .ram ((ports .sramBank).toNat % 16 * 0x2000 + offset.toNat)

/-- Whether RAM is open: two of the chips look at the lower half of the key only. -/
def sramOpen : Bool :=
  match chip with
  | .mbc1 | .mbc2 => (ports .enable).toNat % 16 = 0x0A
  | .mbc3 _ | .mbc5 => (ports .enable).toNat = 0x0A

end Chip

/-! ## Masks -/

/-- The RAM is opened by a lower digit of ten. -/
theorem opensSram_eq (value : UInt8) : opensSram value = decide (value.toNat % 16 = 0x0A) := by
  have low : (value &&& 0x0F).toNat = value.toNat % 16 := toNat_and_low _ 4 rfl
  rw [opensSram, beq_eq_decide, ← low]
  simp [← UInt8.toNat_inj]

/-- The fifth controller opens its RAM by exactly ten. -/
theorem beq_key (value : UInt8) : (value == 0x0A) = decide (value.toNat = 0x0A) := by
  simp [beq_eq_decide, ← UInt8.toNat_inj]

/-- A bank number that may not be zero is at least one. -/
theorem toNat_nonzeroBank (bank : UInt8) : (nonzeroBank bank).toNat = max 1 bank.toNat := by
  unfold nonzeroBank
  split
  next zero => simp [zero]
  next nonzero =>
    have : bank.toNat ≠ 0 := fun zero => nonzero (UInt8.toNat_inj.mp zero)
    omega

/-- The lowest bit tells whether a value is odd. -/
theorem bit_zero (value : UInt8) : (value &&& 0x01 != 0) = decide (value.toNat % 2 = 1) := by
  have low : (value &&& 0x01).toNat = value.toNat % 2 := toNat_and_low _ 1 rfl
  rw [Bool.eq_iff_iff, bne_iff_ne, decide_eq_true_iff, Ne, ← UInt8.toNat_inj, low]
  show ¬ value.toNat % 2 = 0 ↔ _
  omega

/-- Bit eight of an address. -/
theorem bit_eight (address : UInt16) : (address &&& 0x0100 != 0) = address.toNat.testBit 8 := by
  have bit : (address &&& 0x0100).toNat = 2 ^ 8 * (address.toNat.testBit 8).toNat := by
    rw [UInt16.toNat_and, Nat.and_comm]
    exact Nat.two_pow_and _ 8
  rw [Bool.eq_iff_iff, bne_iff_ne, Ne, ← UInt16.toNat_inj, bit]
  cases address.toNat.testBit 8 <;> simp

/-- The lower part of a number written in two parts is replaced. -/
theorem replace_low (high low value : UInt8) :
    (word (high &&& 0x01) low &&& 0x0100) ||| value.toUInt16 = word (high &&& 0x01) value := by
  unfold word
  apply UInt16.toBitVec_inj.mp
  ext i bound
  simp
  interval_cases i <;> simp

/-- The upper half of a word may be replaced by one bit. -/
theorem replace_high (high low value : UInt8) :
    (word (high &&& 0x01) low &&& (0x00FF : UInt16)) |||
        (value &&& 0x01).toUInt16 <<< (8 : UInt16) = word (value &&& 0x01) low := by
  unfold word
  apply UInt16.toBitVec_inj.mp
  ext i bound
  simp
  interval_cases i <;> simp

/-- The controller after writes to the ROM area. -/
def Controller.writeAll (controller : Controller) (writes : List BusWrite) : Controller :=
  writes.foldl (fun controller write => controller.write write.address write.value) controller

namespace Chip

variable (chip : Chip) (ports : Port → UInt8)

/-! ## The controllers -/

/-- The controller that has room for just what its ports select. -/
def holding : Controller :=
  match chip with
  | .mbc1 =>
    .mbc1
      { sramEnabled := opensSram (ports .enable)
        lowBank := nonzeroBank (ports .bank &&& 0x1F)
        highBank := ports .bankHigh &&& 0x03
        wideMode := ports .mode &&& 0x01 != 0 }
  | .mbc2 =>
    .mbc2
      { sramEnabled := opensSram (ports .enable)
        romBank := nonzeroBank (ports .bank &&& 0x0F) }
  | .mbc3 hasClock =>
    .mbc3
      { hasClock
        sramEnabled := ports .enable == 0x0A
        romBank := ports .bank
        sramSelect := ports .sramBank }
  | .mbc5 =>
    .mbc5
      { sramEnabled := ports .enable == 0x0A
        romBank := word (ports .bankHigh &&& 0x01) (ports .bank)
        sramBank := ports .sramBank &&& 0x0F }

/-- A controller that holds the values of power on is a new one. -/
theorem holding_powerOn : chip.holding Port.powerOn = .ofKind chip.kind := by
  cases chip with
  | mbc3 hasClock => cases hasClock <;> rfl
  | _ => rfl

/-- The ports after a write. -/
def set (write : BusWrite) : Port → UInt8 :=
  match chip.port? write.address with
  | some port => Function.update ports port write.value
  | none => ports

/-- A write to the ROM area sets one port and leaves the others. -/
theorem write_holding {write : BusWrite} (rom : write.address < 0x8000) :
    (chip.holding ports).write write.address write.value = chip.holding (chip.set ports write) := by
  -- On both sides the window in which the address lies says what the write sets.
  cases chip with
  | mbc1 =>
    simp only [holding, Controller.write, Mbc1.write, set, port?, rom, if_true]
    repeat' split
    all_goals simp_all
  | mbc2 =>
    simp only [holding, Controller.write, Mbc2.write, set, port?, ge_iff_le, bit_eight]
    repeat' split
    all_goals simp_all
  | mbc3 hasClock =>
    simp only [holding, Controller.write, Mbc3.write, set, port?]
    repeat' split
    all_goals simp_all
  | mbc5 =>
    simp only [holding, Controller.write, Mbc5.write, set, port?, replace_low, replace_high]
    repeat' split
    all_goals simp_all

/-- Writes to the ROM area leave a controller that holds what they have set. -/
theorem writeAll_holding (writes : List BusWrite) (rom : ∀ write ∈ writes, write.address < 0x8000) :
    (chip.holding ports).writeAll writes = chip.holding (writes.foldl chip.set ports) := by
  induction writes generalizing ports with
  | nil => rfl
  | cons write later ih =>
    have first := chip.write_holding ports (rom write List.mem_cons_self)
    rw [Controller.writeAll, List.foldl_cons, first]
    exact ih _ fun w mem => rom w (List.mem_cons_of_mem _ mem)

/-- A write sets the port that its address selects. -/
theorem set_apply (write : BusWrite) (port : Port) :
    chip.set ports write port =
      if chip.port? write.address = some port then write.value else ports port := by
  unfold set
  cases chip.port? write.address with
  | none => simp
  | some other => simp [Function.update_apply, eq_comm]

/-- After a list of writes every port has its last value. -/
theorem foldl_set (writes : List BusWrite) :
    writes.foldl chip.set Port.powerOn = chip.lastValue writes := by
  funext port
  have each : ∀ {s : Unit} {ports : Port → UInt8} (write : BusWrite), True → True → True ∧
      ∀ port, chip.set ports write port =
        if chip.port? write.address = some port then id write.value else ports port :=
    fun write _ _ => ⟨trivial, chip.set_apply _ write⟩
  obtain ⟨-, last⟩ := shown_foldl (fun (ports : Port → UInt8) port => ports port) id @each writes
    (fun _ _ => trivial) trivial
  rw [last port, Option.map_id]
  rfl

/-- After any writes to the ROM area the controller holds what was last written to each port. -/
theorem writeAll_eq_holding (writes : List BusWrite)
    (rom : ∀ write ∈ writes, write.address < 0x8000) :
    (Controller.ofKind chip.kind).writeAll writes = chip.holding (chip.lastValue writes) := by
  rw [← chip.holding_powerOn, chip.writeAll_holding _ _ rom, chip.foldl_set]

/-- Writes to different ports may change places. -/
theorem set_set_comm {first second : BusWrite}
    (apart : chip.port? first.address ≠ chip.port? second.address) :
    chip.set (chip.set ports first) second = chip.set (chip.set ports second) first := by
  funext port
  by_cases reached : chip.port? first.address = some port
  · have other : chip.port? second.address ≠ some port := by
      intro also
      exact apart (reached.trans also.symm)
    simp [set_apply, reached, other]
  · simp [set_apply, reached]

/-! ## What a controller shows -/

/-- The bank of a controller, by what its ports hold. -/
theorem romBank_holding : (chip.holding ports).romBank = chip.romBank ports := by
  cases chip with
  | mbc1 =>
    have low : (ports .bank &&& 0x1F).toNat = (ports .bank).toNat % 32 := toNat_and_low _ 5 rfl
    have high : (ports .bankHigh &&& 0x03).toNat = (ports .bankHigh).toNat % 4 :=
      toNat_and_low _ 2 rfl
    simp only [holding, Controller.romBank, Mbc1.romBank, romBank, toNat_nonzeroBank, low, high,
      Nat.mul_comm]
  | mbc2 =>
    have low : (ports .bank &&& 0x0F).toNat = (ports .bank).toNat % 16 := toNat_and_low _ 4 rfl
    simp only [holding, Controller.romBank, romBank, toNat_nonzeroBank, low]
  | mbc3 hasClock => rfl
  | mbc5 =>
    have high : (ports .bankHigh &&& 0x01).toNat = (ports .bankHigh).toNat % 2 :=
      toNat_and_low _ 1 rfl
    simp only [holding, Controller.romBank, romBank, toNat_word, high, Nat.mul_comm]

/-- Whether the RAM is open, by what the ports hold. -/
theorem sramEnabled_holding : (chip.holding ports).sramEnabled = chip.sramOpen ports := by
  cases chip with
  | mbc1 | mbc2 => exact opensSram_eq _
  | mbc3 | mbc5 => exact beq_key _

/-- The byte behind the RAM window, by what the ports hold. -/
theorem mapSram_holding (offset : UInt16) :
    (chip.holding ports).mapSram offset = chip.sramSlot ports offset := by
  cases chip with
  | mbc1 =>
    have high : (ports .bankHigh &&& 0x03).toNat = (ports .bankHigh).toNat % 4 :=
      toNat_and_low _ 2 rfl
    simp [holding, Controller.mapSram, Mbc1.mapSram, sramSlot, bit_zero, high, sramBankSize]
  | mbc2 => rfl
  | mbc3 hasClock => rfl
  | mbc5 =>
    have low : (ports .sramBank &&& 0x0F).toNat = (ports .sramBank).toNat % 16 :=
      toNat_and_low _ 4 rfl
    simp [holding, Controller.mapSram, Mbc5.mapSram, sramSlot, low, sramBankSize]

/-- The lower window of the ROM, by what the ports hold. -/
theorem mapRom_lower {address : UInt16} (lower : address < 0x4000) :
    (chip.holding ports).mapRom address =
      chip.lowerBank ports * 0x4000 + address.toNat % 0x4000 := by
  have small : address.toNat % 0x4000 = address.toNat :=
    Nat.mod_eq_of_lt (UInt16.lt_iff_toNat_lt.mp lower)
  have fixed : ∀ bank, mapUpperWindow bank address = address.toNat := fun _ => if_pos lower
  cases chip with
  | mbc1 =>
    have high : (ports .bankHigh &&& 0x03).toNat = (ports .bankHigh).toNat % 4 :=
      toNat_and_low _ 2 rfl
    simp only [holding, Controller.mapRom, Mbc1.mapRom, if_pos lower, lowerBank, bit_zero, high,
      romBankSize, windowOffset, small, decide_eq_true_eq]
    split
    · simp [Nat.mul_comm]
    · simp
  | mbc2 | mbc3 | mbc5 => simp [holding, Controller.mapRom, fixed, lowerBank, small]

/-- The byte behind an address of the ROM, by what the ports hold. -/
theorem mapRom_holding (address : UInt16) :
    (chip.holding ports).mapRom address = chip.romOffset ports address := by
  by_cases lower : address < 0x4000
  · rw [romOffset, if_pos lower, chip.mapRom_lower ports lower]
  · have upper : (chip.holding ports).mapRom address =
        (chip.holding ports).romBank * romBankSize + windowOffset address := by
      cases chip <;> exact if_neg lower
    rw [upper, chip.romBank_holding, romOffset, if_neg lower]
    rfl

/-! ## ROM of any size -/

/-- Whether the port of the ROM bank asks for bank 0 of a chip that does not give it. -/
def AsksForZero : Prop :=
  match chip with
  | .mbc1 => (ports .bank).toNat % 32 = 0
  | .mbc2 => (ports .bank).toNat % 16 = 0
  | .mbc3 _ | .mbc5 => False

/-- Where the port asks for bank zero, the bank that is selected is odd. -/
theorem romBank_of_asksForZero (asks : chip.AsksForZero ports) : chip.romBank ports % 2 = 1 := by
  cases chip with
  | mbc1 =>
    simp only [AsksForZero] at asks
    simp only [romBank, asks]
    omega
  | mbc2 =>
    simp only [AsksForZero] at asks
    simp [romBank, asks]
  | mbc3 | mbc5 => cases asks

/-- An odd bank is never the first one of a chip, however small the chip is: a size is a
multiple of two banks. -/
theorem le_mod_of_odd (rom : Rom) {bank offset : Nat} (odd : bank % 2 = 1)
    (small : offset < 0x4000) : 0x4000 ≤ (bank * 0x4000 + offset) % rom.size := by
  obtain ⟨doublings, size⟩ := rom.size_eq
  have multiple : rom.size = 0x8000 * 2 ^ doublings := size.trans (Rom.chipSize_eq doublings)
  have pair : (bank * 0x4000 + offset) % rom.size % 0x8000 = (bank * 0x4000 + offset) % 0x8000 := by
    rw [multiple]
    exact Nat.mod_mul_right_mod _ _ _
  have upper : (bank * 0x4000 + offset) % 0x8000 = 0x4000 + offset := by omega
  have := Nat.mod_le ((bank * 0x4000 + offset) % rom.size) 0x8000
  omega

/-- What a controller shows after any writes to the ROM area is what the last write to each
port selects. Writes to different ports may change places, and a chip that was asked for
bank 0 and does not give it does not show it in the upper window either, however few banks
there are and whatever was written to the other ports. -/
theorem shows_last_writes (writes : List BusWrite)
    (rom : ∀ write ∈ writes, write.address < 0x8000) :
    let controller := (Controller.ofKind chip.kind).writeAll writes
    let ports := chip.lastValue writes
    (controller.romBank = chip.romBank ports ∧ controller.sramEnabled = chip.sramOpen ports ∧
      (∀ address, controller.mapRom address = chip.romOffset ports address) ∧
      ∀ offset, controller.mapSram offset = chip.sramSlot ports offset) ∧
    (∀ first second : BusWrite, first.address < 0x8000 → second.address < 0x8000 →
      chip.port? first.address ≠ chip.port? second.address →
        controller.writeAll [first, second] = controller.writeAll [second, first]) ∧
    (chip.AsksForZero ports → ∀ cartridge : Cartridge, cartridge.controller = controller →
      ∀ address : UInt16, 0x4000 ≤ address → address < 0x8000 →
        ∃ offset, cartridge.romPlace address = .rom offset address ∧ 0x4000 ≤ offset ∧
          offset < cartridge.rom.size) := by
  intro controller ports
  have holds : controller = chip.holding ports := chip.writeAll_eq_holding writes rom
  refine ⟨⟨?_, ?_, ?_, ?_⟩, ?_, ?_⟩
  · rw [holds, chip.romBank_holding]
  · rw [holds, chip.sramEnabled_holding]
  · intro address
    rw [holds, chip.mapRom_holding]
  · intro offset
    rw [holds, chip.mapSram_holding]
  · intro first second firstRom secondRom apart
    rw [holds, chip.writeAll_holding _ _ (by simp [firstRom, secondRom]),
      chip.writeAll_holding _ _ (by simp [firstRom, secondRom])]
    exact congrArg chip.holding (chip.set_set_comm ports apart)
  · intro asks cartridge same address upper _
    have odd := chip.romBank_of_asksForZero ports asks
    have lands : cartridge.controller.mapRom address =
        chip.romBank ports * 0x4000 + address.toNat % 0x4000 := by
      rw [same, holds, chip.mapRom_holding, romOffset, if_neg (UInt16.not_lt.mpr upper)]
    refine ⟨_, rfl, ?_, Nat.mod_lt _ cartridge.rom.size_pos⟩
    rw [lands]
    exact le_mod_of_odd cartridge.rom odd (Nat.mod_lt _ (by decide))

/-- The first chip, told to show bank 32 and no other than the smallest ROM at hand: the upper
window shows bank 33, which is bank 1 there. -/
theorem shows_last_writes_in_smallest_rom :
    let writes : List BusWrite := [⟨0x2000, 0x07⟩, ⟨0x4000, 0x05⟩, ⟨0x2FFF, 0x20⟩, ⟨0x6000, 0x01⟩]
    let controller := (Controller.ofKind Chip.mbc1.kind).writeAll writes
    let cartridge := Cartridge.assemble {} #[] controller
    controller.romBank = 33 ∧
      controller.writeAll [⟨0x0000, 0x0A⟩, ⟨0x4000, 0x02⟩] =
        controller.writeAll [⟨0x4000, 0x02⟩, ⟨0x0000, 0x0A⟩] ∧
      ∃ offset, cartridge.romPlace 0x4000 = .rom offset 0x4000 ∧ 0x4000 ≤ offset ∧
        offset < cartridge.rom.size := by
  intro writes controller cartridge
  obtain ⟨⟨bank, -⟩, commutes, window⟩ := shows_last_writes .mbc1 writes (by decide)
  have asks : (Chip.mbc1.lastValue writes .bank).toNat % 32 = 0 := by decide
  refine ⟨bank.trans ?_, ?_, ?_⟩
  · decide
  · exact commutes _ _ (by decide) (by decide) (by decide)
  · exact window asks cartridge rfl 0x4000 (by decide) (by decide)

end Chip

end Handheld
