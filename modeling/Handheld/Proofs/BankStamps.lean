import Handheld.Proofs.BankSelection
import Handheld.Proofs.Dump
import Handheld.Proofs.RecordFields
import Handheld.Proofs.SectorReads

/-!
# The stamp tells which byte was used

A mark in the upper ROM window is stamped with the number of a bank, and a disassembler puts bank
and address together again to find the byte. The number that is stamped and the offset at which
the byte lies come from two different functions of a controller. They agree for every controller
(`mapRom_upper`), also for the one that has no bank to choose and stamps 1.

The stamp keeps twelve bits. No controller gets beyond nine of them, as long as it started from
power-on and was written to through the ROM area (`Reachable.romBank_lt`), and in a machine there
is no other way to change one (`reachable_session`). What the disassembler computes from the stamp
has still to be reduced to the size of the ROM, as the board does it.
-/

set_option autoImplicit false

namespace Handheld

/-! ## Bank numbers of two parts

The part of a number that a write leaves alone is bounded by the number before it. -/

/-- No write brings the bank of the first controller past nine bits. -/
theorem Mbc1.romBank_write_lt (m : Mbc1) (small : m.romBank < 0x200) (address : UInt16)
    (value : UInt8) : (m.write address value).romBank < 0x200 := by
  have low : (value &&& 0x1F).toNat = value.toNat % 32 := toNat_and_low _ 5 rfl
  have high : (value &&& 0x03).toNat = value.toNat % 4 := toNat_and_low _ 2 rfl
  have rest := m.lowBank.toNat_lt
  have before : m.highBank.toNat * 32 + m.lowBank.toNat < 0x200 := small
  have lowWritten : m.highBank.toNat * 32 + (nonzeroBank (value &&& 0x1F)).toNat < 0x200 := by
    rw [toNat_nonzeroBank, low]
    omega
  have highWritten : (value &&& 0x03).toNat * 32 + m.lowBank.toNat < 0x200 := by
    rw [high]
    omega
  unfold write
  repeat' split
  · exact small
  · exact lowWritten
  · exact highWritten
  · exact small

/-- No write brings the bank of the fifth controller past nine bits. -/
theorem Mbc5.romBank_write_lt (m : Mbc5) (small : m.romBank.toNat < 0x200) (address : UInt16)
    (value : UInt8) : (m.write address value).romBank.toNat < 0x200 := by
  have masked : ∀ mask : UInt16, mask.toNat < 2 ^ 9 → (m.romBank &&& mask).toNat < 2 ^ 9 := by
    intro mask short
    rw [UInt16.toNat_and]
    exact Nat.lt_of_le_of_lt Nat.and_le_right short
  have lowWritten : ((m.romBank &&& 0x0100) ||| value.toUInt16).toNat < 2 ^ 9 := by
    have byte : value.toUInt16.toNat < 2 ^ 9 := by
      rw [UInt8.toNat_toUInt16]
      exact Nat.lt_trans value.toNat_lt (by decide)
    rw [UInt16.toNat_or]
    exact Nat.or_lt_two_pow (masked _ (by decide)) byte
  have highWritten : ((m.romBank &&& (0x00FF : UInt16)) |||
      (value &&& 0x01).toUInt16 <<< (8 : UInt16)).toNat < 2 ^ 9 := by
    have bit : (value &&& 0x01).toNat = value.toNat % 2 := toNat_and_low _ 1 rfl
    have raised : ((value &&& 0x01).toUInt16 <<< (8 : UInt16)).toNat < 2 ^ 9 := by
      rw [UInt16.toNat_shiftLeft, UInt8.toNat_toUInt16, bit, Nat.shiftLeft_eq]
      show value.toNat % 2 * 2 ^ 8 % 2 ^ 16 < 2 ^ 9
      omega
    rw [UInt16.toNat_or]
    exact Nat.or_lt_two_pow (masked _ (by decide)) raised
  unfold write
  repeat' split
  · exact small
  · exact lowWritten
  · exact highWritten
  · exact small
  · exact small

namespace Controller

/-! ## Controllers that can be reached -/

/-- The controllers as they are after power-on, a flash cartridge with any card in it, and as
writes to the ROM area leave them. -/
inductive Reachable : Controller → Prop
  | powerOn (kind : ControllerKind) : Reachable (.ofKind kind)
  | withCard (image : Array UInt8) : Reachable (.flash { image })
  | write {controller : Controller} (before : Reachable controller) (address : UInt16)
    (value : UInt8) : Reachable (controller.write address value)

/-- No number that a controller comes to has more than nine bits. -/
theorem romBank_write_lt {controller : Controller} (small : controller.romBank < 0x200)
    (address : UInt16) (value : UInt8) : (controller.write address value).romBank < 0x200 := by
  have byte : ∀ bank : UInt8, bank.toNat < 0x200 := fun bank =>
    Nat.lt_trans bank.toNat_lt (by decide)
  cases controller with
  | none => exact small
  | mbc1 m => exact m.romBank_write_lt small address value
  | mbc5 m => exact m.romBank_write_lt small address value
  | mbc2 | mbc3 | flash => exact byte _

/-- In every reachable state the bank has at most nine bits. -/
theorem Reachable.romBank_lt {controller : Controller} (reachable : controller.Reachable) :
    controller.romBank < 0x200 := by
  induction reachable with
  | powerOn kind => cases kind <;> decide
  | withCard image => exact (by decide : (1 : UInt8).toNat < 0x200)
  | write _ address value ih => exact romBank_write_lt ih address value

/-! ## Where the upper window lies -/

/-- What the upper window shows lies in the bank that is stamped. -/
theorem mapRom_upper (controller : Controller) {address : UInt16}
    (window : 0x4000 ≤ address ∧ address < 0x8000) :
    controller.mapRom address = controller.romBank * 0x4000 + address.toNat % 0x4000 := by
  have upper : ¬ address < 0x4000 := UInt16.not_lt.mpr window.1
  cases controller with
  | none =>
    have above := UInt16.le_iff_toNat_le.mp window.1
    have below := UInt16.lt_iff_toNat_lt.mp window.2
    show address.toNat = 1 * 0x4000 + address.toNat % 0x4000
    change 0x4000 ≤ address.toNat at above
    change address.toNat < 0x8000 at below
    omega
  | _ => exact if_neg upper

end Controller

/-! ## Sessions -/

/-- Whether the controller that a request brings along, if it brings one, can be reached. -/
def Request.BringsReachable : Request → Prop
  | .swap cartridge _ => cartridge.controller.Reachable
  | .install controller => controller.Reachable
  | _ => True

/-- A store is at most a write to the ROM area. -/
theorem Cartridge.reachable_store {cartridge : Cartridge}
    (reachable : cartridge.controller.Reachable) (place : Place) (value : UInt8) :
    (cartridge.store place value).controller.Reachable := by
  rw [store_controller]
  split
  · exact .write reachable _ _
  · exact reachable

namespace Machine

/-- A session that brings reachable controllers leaves one. -/
theorem reachable_session {m : Machine} (reachable : m.bus.cartridge.controller.Reachable)
    {requests : List Request} (brought : ∀ request ∈ requests, request.BringsReachable) :
    (m.session requests).1.bus.cartridge.controller.Reachable := by
  refine session_of_lasting
    (Hardware.lasting_of_cartridge (Q := fun cartridge => cartridge.controller.Reachable)
      Cartridge.reachable_store) ?_ reachable
  intro request member renews m before
  cases request with
  | reset =>
    show m.reset.bus.cartridge.controller.Reachable
    rw [m.reset_keeps.1]
    exact before
  | swap cartridge notes => exact brought _ member
  | install controller => exact brought _ member
  | _ => cases renews

/-! ## The stamp -/

/-- After a mark the cell shows the kinds of use and the bank that is selected. -/
theorem cell?_mark {m : Machine} {place : Place} {cell : Cell} (here : m.cell? place = some cell)
    (usage : Usage) :
    (m.within fun s => s.mark place usage).cell? place =
      some (cell.mark usage m.bus.cartridge.romBank) := by
  have there : System.present m.bus place = true := by
    rw [← m.cell?_isSome, here]
    rfl
  obtain ⟨value, kept, rfl⟩ := Option.map_eq_some_iff.mp here
  have note : (m.toSystem.mark place usage).ledger.note place =
      { m.ledger.note place with
        record := (m.ledger.note place).record.mark usage m.bus.cartridge.romBank } := by
    rw [System.mark_eq, if_pos there, Ledger.mark,
      Ledger.note_modify _ _ _ _ (ne_openBus_of_cell here), if_pos rfl]
    rfl
  have same : (m.toSystem.mark place usage).byte? place = some value := by
    rw [System.mark_eq]
    exact kept
  show ((m.toSystem.mark place usage).byte? place).map
    (fun value => Cell.mk _ value ((m.toSystem.mark place usage).ledger.note place)) = _
  rw [same, note]
  rfl

/-- The byte that the upper ROM window shows. -/
theorem cell?_upper {m : Machine} {address : UInt16}
    (window : 0x4000 ≤ address ∧ address < 0x8000) :
    let rom := m.bus.cartridge.rom
    ∃ cell index, m.cell? (m.resolve address) = some cell ∧
      m.resolve address = .rom index address ∧ rom.bytes[index]? = some cell.value ∧
      cell.identity = .tagged 0 index ∧
      (m.bus.cartridge.romBank * 0x4000 + address.toNat % 0x4000) % rom.size = index := by
  intro rom
  have above : 0x0900 ≤ address := by
    rw [UInt16.le_iff_toNat_le]
    exact Nat.le_trans (by decide) (UInt16.le_iff_toNat_le.mp window.1)
  have place : m.resolve address = m.bus.cartridge.romPlace address :=
    m.bus.resolve_above_boot ⟨above, window.2⟩
  have bound := Nat.mod_lt (m.bus.cartridge.controller.mapRom address) rom.size_pos
  have kept : rom.bytes[m.bus.cartridge.controller.mapRom address % rom.size]? =
      some rom.bytes[m.bus.cartridge.controller.mapRom address % rom.size] :=
    Array.getElem?_eq_getElem bound
  refine ⟨⟨.tagged 0 _, _, m.ledger.note (m.resolve address)⟩, _, ?_, place, kept, rfl, ?_⟩
  · rw [place]
    exact congrArg (Option.map _) kept
  · rw [Controller.mapRom_upper _ window]
    rfl

/-- The stamp of a mark in the upper ROM window tells which byte was marked. Its bank is the bank
of the controller, of which nothing is cut off; bank and address make an offset, and where this
lies in a ROM of that size there is the byte, and there its identity points. This holds after any
session, as long as the controllers that come into the machine were written to through the ROM area
only. -/
theorem stamped_bank_identifies_byte {m : Machine}
    (reachable : m.bus.cartridge.controller.Reachable) {requests : List Request}
    (brought : ∀ request ∈ requests, request.BringsReachable) {address : UInt16}
    (upper : 0x4000 ≤ address) (below : address < 0x8000) (usage : Usage) :
    let last := (m.session requests).1
    let rom := last.bus.cartridge.rom
    let place := last.resolve address
    let marked := last.within fun s => s.mark place usage
    ∃ cell index, marked.cell? place = some cell ∧ place = .rom index address ∧
      rom.bytes[index]? = some cell.value ∧
      cell.note.record.bank = last.bus.cartridge.romBank ∧
      (cell.note.record.bank * 0x4000 + address.toNat % 0x4000) % rom.size = index ∧
      cell.identity.word.toNat = index := by
  intro last rom place marked
  have small : last.bus.cartridge.romBank < 0x200 :=
    (reachable_session reachable brought).romBank_lt
  obtain ⟨cell, index, here, resolved, kept, identity, offset⟩ := last.cell?_upper ⟨upper, below⟩
  have stamp : (cell.mark usage last.bus.cartridge.romBank).note.record.bank =
      last.bus.cartridge.romBank := by
    show (cell.note.record.mark usage _).bank = _
    rw [UsageRecord.bank_mark, Nat.mod_eq_of_lt (Nat.lt_trans small (by decide))]
  refine ⟨_, index, cell?_mark here usage, resolved, kept, stamp, ?_, ?_⟩
  · rw [stamp]
    exact offset
  · have near : index < 0x100000000 := by
      rw [← offset]
      exact Nat.lt_of_le_of_lt (Nat.mod_le _ _) (by omega)
    show cell.identity.word.toNat = index
    rw [identity, Identity.toNat_tagged (by decide) near]
    exact Nat.zero_add _

/-- A fifth controller that was told to show bank 134 comes into a machine whose ROM has two banks.
The byte at 4123 is byte 123 there. -/
theorem stamped_bank_identifies_byte_of_small_rom :
    let controller := ((Controller.ofKind .mbc5).write 0x3000 0x01).write 0x2000 0x34
    let last := ((Machine.assemble .empty #[]).session [.install controller]).1
    let marked := last.within fun s => s.mark (last.resolve 0x4123) .data
    ∃ cell, marked.cell? (.rom 0x123 0x4123) = some cell ∧ cell.note.record.bank = 0x134 ∧
      cell.identity.word.toNat = 0x123 := by
  intro controller last marked
  have reachable : (Machine.assemble .empty #[]).bus.cartridge.controller.Reachable :=
    .powerOn .none
  have brought : ∀ request ∈ [Request.install controller], request.BringsReachable :=
    List.forall_mem_singleton.mpr (.write (.write (.powerOn .mbc5) _ _) _ _)
  have upper : (0x4000 : UInt16) ≤ 0x4123 := by decide
  have bank : last.bus.cartridge.romBank = 0x134 := rfl
  have size : last.bus.cartridge.rom.size = 0x8000 := Cartridge.size_rom_empty
  obtain ⟨cell, index, here, place, -, stamp, offset, identity⟩ :=
    stamped_bank_identifies_byte reachable brought upper (by decide) .data
  have byte : index = 0x123 := by
    have address : (0x4123 : UInt16).toNat = 0x4123 := rfl
    rw [stamp, bank, size, address] at offset
    omega
  subst byte
  exact ⟨cell, (congrArg marked.cell? place).symm.trans here, stamp.trans bank, identity⟩

end Machine

end Handheld
