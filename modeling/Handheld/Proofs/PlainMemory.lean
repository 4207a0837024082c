import Handheld.FlatMemory
import Handheld.Proofs.FlatMemory
import Handheld.Proofs.Hardware.Memory

/-!
# Bytes that stay where they are put

What an instruction does to bytes can be said of any address space that keeps a few promises:
no address stands for a register of the processor, nothing is kept on the open bus, and telling
the devices the time changes no byte (`AddressSpace.Lawful`). Where memory is plain, a byte
stored at a place is kept there, and no other byte changes (`AddressSpace.PlainMemory`). Flat
memory is plain throughout. In the hardware the memories are plain, and so is the RAM of a
cartridge unless its controller keeps half-bytes.

A register is as good as a byte of plain memory. So for each function through which an
instruction writes a byte there is one equation that says which byte is kept at any place
afterwards, and one for the origins of registers.
-/

set_option autoImplicit false

namespace Handheld

/-- The registers of the processor and the open bus are not on the bus, and the time changes no
byte. -/
class AddressSpace.Lawful (β : Type) [AddressSpace β] : Prop where
  resolve_ne_register : ∀ (bus : β) address r, AddressSpace.resolve bus address ≠ .register r
  byte?_openBus : ∀ bus : β, AddressSpace.byte? bus .openBus = none
  byte?_sync : ∀ (bus : β) cycles place,
    AddressSpace.byte? (AddressSpace.sync bus cycles) place = AddressSpace.byte? bus place

/-- Some places of an address space are plain memory. -/
class AddressSpace.PlainMemory (β : Type) [AddressSpace β] extends AddressSpace.Lawful β where
  /-- Whether a place belongs to plain memory. -/
  isPlain : β → Place → Bool
  isPlain_sync : ∀ bus cycles place,
    isPlain (AddressSpace.sync bus cycles) place = isPlain bus place
  byte?_of_isPlain : ∀ {bus place}, isPlain bus place = true →
    AddressSpace.byte? bus place = some (AddressSpace.load bus place)
  byte?_store : ∀ {bus place}, isPlain bus place = true → ∀ value other,
    AddressSpace.byte? (AddressSpace.store bus place value) other =
      if other = place then some value else AddressSpace.byte? bus other

/-! ## Flat memory -/

namespace FlatMemory

/-- There is one place of plain memory for each address. -/
def isPlain (_ : FlatMemory) : Place → Bool
  | .wram n => n < 0x10000
  | _ => false

/-- A store to a plain place is read back there, and all other bytes stay. -/
theorem byte?_store (memory : FlatMemory) {p : Place} (plain : memory.isPlain p = true)
    (value : UInt8) (other : Place) :
    (memory.store p value).byte? other = if other = p then some value else memory.byte? other := by
  cases p with
  | wram n =>
    have inside : n < 0x10000 := of_decide_eq_true plain
    cases other with
    | wram k =>
      show (memory.bytes.setIfInBounds n value)[k]? = _
      rw [Vector.getElem?_setIfInBounds, if_pos inside]
      by_cases same : n = k
      · rw [if_pos same, same, if_pos rfl]
      · rw [if_neg same, if_neg (fun equal => same (Place.wram.inj equal).symm)]
        rfl
    | _ => rfl
  | _ => contradiction

instance : AddressSpace.PlainMemory FlatMemory where
  resolve_ne_register _ address r := place_ne_register address r
  byte?_openBus _ := rfl
  byte?_sync _ _ _ := rfl
  isPlain
  isPlain_sync _ _ _ := rfl
  byte?_of_isPlain {memory p} plain := by
    cases p with
    | wram n =>
      have inside : n < 0x10000 := of_decide_eq_true plain
      show memory.bytes[n]? = some ((memory.bytes[n]?).getD 0xFF)
      rw [Vector.getElem?_eq_getElem inside]
      rfl
    | _ => contradiction
  byte?_store {memory _} plain := memory.byte?_store plain

end FlatMemory

/-! ## The hardware -/

namespace Hardware

/-- Whether a byte stored at a place is kept there as it is. -/
def isPlain (hw : Hardware) : Place → Bool
  | .sram n => n < hw.cartridge.sram.size && hw.cartridge.controller.sramOnes == 0
  | place => place.isMemory && (hw.byte? place).isSome

/-- The plain places are those of memory, and the RAM of a cartridge that keeps whole bytes. -/
theorem isPlain_cases {hw : Hardware} {place : Place} (plain : hw.isPlain place = true) :
    (place.isMemory = true ∧ (hw.byte? place).isSome = true) ∨
      ∃ n < hw.cartridge.sram.size, hw.cartridge.controller.sramOnes = 0 ∧ place = .sram n := by
  cases place with
  | sram n =>
    obtain ⟨inside, whole⟩ := Bool.and_eq_true_iff.mp plain
    exact .inr ⟨n, of_decide_eq_true inside, eq_of_beq whole, rfl⟩
  | _ => exact .inl (Bool.and_eq_true_iff.mp plain)

/-- Cartridge RAM keeps a byte with the bits that its controller has no room for set. -/
theorem byte?_store_sram (hw : Hardware) {n : Nat} (inside : n < hw.cartridge.sram.size)
    (value : UInt8) (other : Place) :
    (hw.store (.sram n) value).byte? other =
      if other = .sram n then some (value ||| hw.cartridge.controller.sramOnes)
      else hw.byte? other := by
  cases other with
  | sram k =>
    show (hw.cartridge.sram.setIfInBounds n (value ||| hw.cartridge.controller.sramOnes))[k]? =
      if Place.sram k = Place.sram n then some (value ||| hw.cartridge.controller.sramOnes)
      else hw.cartridge.sram[k]?
    rw [Array.getElem?_setIfInBounds]
    by_cases same : n = k
    · subst same
      rw [if_pos rfl, if_pos inside, if_pos rfl]
    · rw [if_neg same, if_neg (fun equal => same (Place.sram.inj equal).symm)]
  | _ => rfl

instance : AddressSpace.PlainMemory Hardware where
  resolve_ne_register := resolve_ne_register
  byte?_openBus _ := rfl
  byte?_sync _ _ place := by
    cases place <;> rfl
  isPlain
  isPlain_sync _ _ place := by
    cases place <;> rfl
  byte?_of_isPlain {hw place} plain := by
    have shown : hw.load place = (hw.byte? place).getD 0xFF := by
      apply hw.load_of_not_io
      rintro n rfl
      contradiction
    show hw.byte? place = some (hw.load place)
    rw [shown]
    obtain ⟨-, kept⟩ | ⟨n, inside, -, rfl⟩ := isPlain_cases plain
    · obtain ⟨value, here⟩ := Option.isSome_iff_exists.mp kept
      rw [here]
      rfl
    · have here : hw.byte? (.sram n) = some hw.cartridge.sram[n] := Array.getElem?_eq_getElem inside
      rw [here]
      rfl
  byte?_store {hw place} plain value other := by
    obtain ⟨memory, kept⟩ | ⟨n, inside, whole, rfl⟩ := isPlain_cases plain
    · show (hw.store place value).byte? other = _
      rw [hw.store_memory memory]
      exact hw.byte?_storeMemory memory kept value other
    · refine (hw.byte?_store_sram inside value other).trans ?_
      rw [whole, UInt8.or_zero]
      rfl

end Hardware

/-! ## A processor at work -/

namespace System

variable {β : Type} [AddressSpace β] (s : System β)

/-- No byte changes but at the places given. -/
def AgreeOutside (places : List Place) (s t : System β) : Prop :=
  ∀ q, q ∉ places → t.byte? q = s.byte? q

/-- A register holds its byte. -/
theorem byte?_register (r : Register) :
    s.byte? (.register r) = some (s.cpu.registers.get r) := rfl

/-! ### Flags -/

/-- Setting the flags changes no byte elsewhere. -/
theorem byte?_setFlags (flags : Flags) {q : Place} (other : q ≠ .register .f) :
    (s.setFlags flags).byte? q = s.byte? q := by
  cases q with
  | register r => cases r <;> first | rfl | contradiction
  | _ => rfl

omit [AddressSpace β] in
/-- Setting the flags changes no other register. -/
theorem get_setFlags (flags : Flags) {r : Register} (other : r ≠ .f) :
    (s.setFlags flags).cpu.registers.get r = s.cpu.registers.get r := by
  cases r <;> first | rfl | contradiction

/-- A byte written elsewhere leaves the flags alone. -/
theorem flags_write {p : Place} (other : p ≠ .register .f) (value : UInt8) :
    (s.write p value).flags = s.flags := by
  unfold flags
  rw [write_cpu]
  cases p with
  | register r => cases r <;> first | rfl | contradiction
  | _ => rfl

/-- Counting the length and the cycles of an operation leaves the flags alone. -/
theorem flags_ready (operation : Operation) : (s.ready operation).flags = s.flags := by
  unfold flags
  rw [ready_cpu]

/-! ### Origins of registers -/

/-- The origin of a register is the one on record. -/
theorem origin?_register (r : Register) :
    s.origin? (.register r) = (s.ledger.note (.register r)).origin := rfl

/-- Marking a use changes the origin of no register. -/
theorem origin?_mark (p : Place) (usage : Usage) (r : Register) :
    (s.mark p usage).origin? (.register r) = s.origin? (.register r) := by
  rw [origin?_register, mark_eq]
  dsimp only
  split
  · exact s.ledger.origin_mark p _ usage _
  · rfl

/-- Marking the use of an origin changes the origin of no register. -/
theorem origin?_markOrigin (p : Place) (usage : Usage) (r : Register) :
    (s.markOrigin p usage).origin? (.register r) = s.origin? (.register r) := by
  unfold markOrigin
  split
  · exact s.origin?_mark _ usage r
  · rfl

/-- A register that is written has no origin, and the others keep theirs. -/
theorem origin?_write_register (r : Register) (value : UInt8) (q : Register) :
    (s.write (.register r) value).origin? (.register q) =
      if q = r then none else s.origin? (.register q) := by
  have booked : (s.write (.register r) value).ledger = s.ledger.clearOrigin (.register r) := by
    unfold write
    rw [clearOrigin_eq]
    rfl
  rw [origin?_register, booked]
  unfold Ledger.clearOrigin
  rw [Ledger.note_modify _ _ _ _ (by rintro ⟨⟩)]
  simp only [Place.home, Place.register.injEq]
  split <;> rfl

/-- Counting the length and the cycles of an operation changes the origin of no register. -/
theorem origin?_ready (operation : Operation) (r : Register) :
    (s.ready operation).origin? (.register r) = s.origin? (.register r) := by
  -- The bytes of the instruction are marked one after the other, behind the opcode.
  have operands : ∀ count, ((s.mark (s.resolve s.cpu.pc) .instruction).markOperands s.cpu.pc
      count).origin? (.register r) = s.origin? (.register r) := by
    intro count
    induction count with
    | zero => exact s.origin?_mark _ _ r
    | succ count ih =>
      unfold markOperands
      rw [origin?_mark, ih]
  exact operands (operation.length.toNat - 1)

/-! ### Bytes -/

section
variable [AddressSpace.Lawful β]

/-- What a processor loads from an address is what its address space shows there. -/
theorem load_at (address : UInt16) : s.load (s.resolve address) = AddressSpace.read s.bus address :=
  s.load_place (AddressSpace.Lawful.resolve_ne_register s.bus address)

/-- Until an operation takes effect, no byte changes. -/
theorem byte?_ready (operation : Operation) (q : Place) :
    (s.ready operation).byte? q = s.byte? q := by
  cases q <;> simp only [byte?, ready_cpu, ready_bus, AddressSpace.Lawful.byte?_sync]

end

/-- A register that is written holds what it keeps of the byte, and no other register changes. -/
theorem get_write_register (r : Register) (value : UInt8) (q : Register) :
    (s.write (.register r) value).cpu.registers.get q =
      if q = r then kept (.register r) value else s.cpu.registers.get q := by
  rw [write_cpu]
  show (s.cpu.registers.set r value).get q = _
  rw [Registers.get_set]
  simp only [kept, Place.register.injEq]

/-- A byte that is written to a register is kept there, and no other byte changes. -/
theorem byte?_write_register (r : Register) (value : UInt8) (q : Place) :
    (s.write (.register r) value).byte? q =
      if q = .register r then some (kept (.register r) value) else s.byte? q := by
  cases q with
  | register q =>
    rw [byte?_register, get_write_register]
    simp only [Place.register.injEq]
    split <;> rfl
  | _ =>
    show AddressSpace.byte? (s.write (.register r) value).bus _ = _
    rw [write_bus]
    rfl

section
variable [AddressSpace.PlainMemory β]

/-- Whether a byte written to a place is kept there: in the registers and in plain memory. -/
def keeps (s : System β) : Place → Bool
  | .register _ => true
  | place => AddressSpace.PlainMemory.isPlain s.bus place

/-- Counting the length and the cycles of an operation does not change which places keep bytes. -/
theorem keeps_ready (operation : Operation) (p : Place) :
    (s.ready operation).keeps p = s.keeps p := by
  cases p <;> simp only [keeps, ready_bus, AddressSpace.PlainMemory.isPlain_sync]

variable {s} in
/-- A place that keeps bytes holds the one that is loaded from it. -/
theorem byte?_of_keeps {p : Place} (keeps : s.keeps p = true) : s.byte? p = some (s.load p) := by
  cases p with
  | register r => rfl
  | _ => exact AddressSpace.PlainMemory.byte?_of_isPlain keeps

variable {s} in
/-- A byte that is kept reads the same once an operation is about to take effect. -/
theorem load_ready {p : Place} (keeps : s.keeps p = true) (operation : Operation) :
    (s.ready operation).load p = s.load p := by
  have later : (s.ready operation).keeps p = true := by
    rw [keeps_ready, keeps]
  have same := s.byte?_ready operation p
  rw [byte?_of_keeps later, byte?_of_keeps keeps] at same
  exact Option.some.inj same

variable {s} in
/-- A byte that is written where it is kept changes no other byte. -/
theorem byte?_write {p : Place} (keeps : s.keeps p = true) (value : UInt8) (q : Place) :
    (s.write p value).byte? q = if q = p then some (kept p value) else s.byte? q := by
  by_cases inside : ∃ r, p = .register r
  · obtain ⟨r, rfl⟩ := inside
    exact s.byte?_write_register r value q
  · have outside : ∀ r, p ≠ .register r := fun r same => inside ⟨r, same⟩
    have plain : AddressSpace.PlainMemory.isPlain s.bus p = true := by
      cases p with
      | register r => exact absurd rfl (outside r)
      | _ => exact keeps
    have stored := AddressSpace.PlainMemory.byte?_store plain value q
    have shown : kept p value = value := if_neg (outside .f)
    rw [shown]
    cases q with
    | register q =>
      show some ((s.write p value).cpu.registers.get q) = _
      rw [write_cpu, store_place s outside, if_neg (outside q).symm]
      rfl
    | _ =>
      show AddressSpace.byte? (s.write p value).bus _ = _
      rw [write_bus, store_place s outside]
      exact stored

end

end System

end Handheld
