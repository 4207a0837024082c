import Mathlib.Data.List.Infix
import Mathlib.Data.Nat.Digits.Defs
import Handheld.Cartridge.Controller
import Handheld.Proofs.Writes

/-!
# The command window of a flash cartridge

Three keys open the window, each at its own address and in order. The lock does not look at
writes to other addresses, so it sees a subsequence of all writes, and it is an automaton
that reads this sequence for a suffix: its state is the number of keys that the sequence
ends with (`KeysGiven`). A write to one of the four addresses that is not the next key makes
the lock begin anew.

Behind the window lie four bytes of a sector number. A byte is replaced by itself
(`byteOf_withSectorByte`), so each of them is what was last written to it while the window
was open.
-/

set_option autoImplicit false

namespace Handheld

/-- The number of keys that have been given in order. -/
def Lock.count : Lock → Nat
  | .shut => 0
  | .firstKey => 1
  | .secondKey => 2
  | .opened => 3

namespace FlashCart

/-- The cartridge after a write. -/
def take (cart : FlashCart) (write : BusWrite) : FlashCart :=
  cart.write write.address write.value

/-! ## The keys -/

/-- The keys in the order in which they are to be given. -/
def keys : List BusWrite := [⟨0x7F00, 0xE1⟩, ⟨0x7F10, 0xE2⟩, ⟨0x7F20, 0xE3⟩]

/-- Whether the lock looks at a write: those to the addresses of the keys, and to one more
that shuts the window. -/
def reachesLock (write : BusWrite) : Bool :=
  write.address ∈ [0x7F00, 0x7F10, 0x7F20, 0x7FF0]

/-- The window is open if the last that the lock has seen are the keys. -/
def Opens (past : List BusWrite) : Prop := keys <:+ past.filter reachesLock

instance (past : List BusWrite) : Decidable (Opens past) :=
  inferInstanceAs (Decidable (_ <:+ _))

/-- The lock counts how many of the keys it has seen last. -/
def KeysGiven (past : List BusWrite) (cart : FlashCart) : Prop :=
  ∀ n < keys.length, keys.take (n + 1) <:+ past.filter reachesLock ↔ cart.lock.count = n + 1

/-- One more key is given exactly if the write is that key and those before it were given last. -/
theorem take_suffix_concat {n : Nat} (bound : n < keys.length) (past : List BusWrite)
    (write : BusWrite) :
    keys.take (n + 1) <:+ past ++ [write] ↔ keys.take n <:+ past ∧ keys[n] = write := by
  have one : [keys[n]].length = [write].length := rfl
  rw [← List.take_concat_get' _ _ bound, List.suffix_append_inj_of_length_eq one,
    List.singleton_inj]

/-- A write that the lock does not look at leaves it as it is. -/
theorem take_lock_of_not_reaches (cart : FlashCart) {write : BusWrite}
    (elsewhere : reachesLock write = false) : (cart.take write).lock = cart.lock := by
  simp only [reachesLock, List.mem_cons, List.not_mem_nil, or_false, decide_eq_false_iff_not,
    not_or] at elsewhere
  obtain ⟨first, second, third, shuts⟩ := elsewhere
  simp only [take, FlashCart.write, if_neg first, if_neg second, if_neg third, if_neg shuts]
  repeat' split
  all_goals rfl

/-- One key is counted if it is the first, and one more if it is the next. -/
theorem take_lock_of_reaches (cart : FlashCart) {write : BusWrite}
    (reaches : reachesLock write = true) {n : Nat} (bound : n < keys.length) :
    (cart.take write).lock.count = n + 1 ↔
      (n = 0 ∨ cart.lock.count = n) ∧ keys[n] = write := by
  obtain ⟨address, value⟩ := write
  simp only [reachesLock, List.mem_cons, List.not_mem_nil, or_false, decide_eq_true_eq] at reaches
  have few : n = 0 ∨ n = 1 ∨ n = 2 := by
    have : n < 3 := bound
    omega
  obtain rfl | rfl | rfl | rfl := reaches
  · have outcome : (cart.take ⟨0x7F00, value⟩).lock =
        if value = 0xE1 then .firstKey else .shut := rfl
    grind [Lock.count, keys]
  · have outcome : (cart.take ⟨0x7F10, value⟩).lock =
        if value = 0xE2 ∧ cart.lock = .firstKey then .secondKey else .shut := rfl
    cases given : cart.lock <;> grind [Lock.count, keys]
  · have outcome : (cart.take ⟨0x7F20, value⟩).lock =
        if value = 0xE3 ∧ cart.lock = .secondKey then .opened else .shut := rfl
    cases given : cart.lock <;> grind [Lock.count, keys]
  · have outcome : (cart.take ⟨0x7FF0, value⟩).lock = .shut := rfl
    grind [Lock.count, keys]

/-- A write leaves the lock with the right count of keys. -/
theorem KeysGiven.take {past : List BusWrite} {cart : FlashCart} (given : KeysGiven past cart)
    (write : BusWrite) : KeysGiven (past ++ [write]) (cart.take write) := by
  intro n bound
  cases reaches : reachesLock write with
  | false =>
    rw [take_lock_of_not_reaches cart reaches, List.filter_append,
      List.filter_singleton, reaches]
    simpa using given n bound
  | true =>
    have before : keys.take n <:+ past.filter reachesLock ↔ n = 0 ∨ cart.lock.count = n := by
      cases n with
      | zero => simp
      | succ n => simpa using given n (Nat.lt_of_succ_lt bound)
    rw [take_lock_of_reaches cart reaches bound, List.filter_append, List.filter_singleton, reaches]
    show keys.take (n + 1) <:+ past.filter reachesLock ++ [write] ↔ _
    rw [take_suffix_concat bound, before]

/-- The window is open exactly if the last that the lock has seen are the keys. -/
theorem KeysGiven.unlocked_iff {past : List BusWrite} {cart : FlashCart}
    (given : KeysGiven past cart) : cart.unlocked = true ↔ Opens past := by
  have all : Opens past ↔ cart.lock.count = 3 := given 2 (by decide)
  rw [all]
  unfold unlocked
  cases cart.lock <;> decide

/-! ## The sector number -/

/-- A byte of a sector number, the lowest first. -/
def byteOf (sector : UInt32) (k : Nat) : UInt8 := UInt8.ofNat (sector.toNat >>> (8 * k))

/-- A sector number is read off its four bytes. -/
theorem toNat_eq_ofDigits (sector : UInt32) :
    sector.toNat = Nat.ofDigits 256 ([0, 1, 2, 3].map fun k => (byteOf sector k).toNat) := by
  have small := sector.toNat_lt
  simp only [byteOf, UInt8.toNat_ofNat', Nat.shiftRight_eq_div_pow, List.map_cons, List.map_nil,
    Nat.ofDigits_cons, Nat.ofDigits_nil]
  omega

/-- The bits of a byte of the sector number. -/
theorem testBit_byteOf (sector : UInt32) (k i : Nat) :
    (byteOf sector k).toNat.testBit i = (decide (i < 8) && sector.toNat.testBit (8 * k + i)) := by
  rw [byteOf, UInt8.toNat_ofNat', Nat.testBit_mod_two_pow, Nat.testBit_shiftRight]

/-- What a byte replaced makes of a bit of the sector number. -/
theorem testBit_withSectorByte (sector : UInt32) {index : Nat} (bound : index < 4) (value : UInt8)
    (i : Nat) :
    (withSectorByte sector (UInt32.ofNat index) value).toNat.testBit i =
      if 8 * index ≤ i ∧ i < 8 * index + 8 then value.toNat.testBit (i - 8 * index)
      else sector.toNat.testBit i := by
  have shift : (8 * UInt32.ofNat index).toNat % 32 = 8 * index := by
    simp
    omega
  have outside : 32 ≤ i → sector.toNat.testBit i = false := by
    intro high
    have room : 2 ^ 32 ≤ 2 ^ i := Nat.pow_le_pow_right (by decide) high
    exact Nat.testBit_lt_two_pow (Nat.lt_of_lt_of_le sector.toNat_lt room)
  have beyond : 8 ≤ i - 8 * index → value.toNat.testBit (i - 8 * index) = false := by
    intro high
    have room : 2 ^ 8 ≤ 2 ^ (i - 8 * index) := Nat.pow_le_pow_right (by decide) high
    exact Nat.testBit_lt_two_pow (Nat.lt_of_lt_of_le value.toNat_lt room)
  have ones : ∀ j, Nat.testBit 255 j = decide (j < 8) := Nat.testBit_two_pow_sub_one 8
  have inverted : UInt32.size - 1 - 255 <<< (8 * index) % 2 ^ 32 =
      2 ^ 32 - (255 <<< (8 * index) % 2 ^ 32 + 1) := by
    simp [UInt32.size]
  simp only [withSectorByte, UInt32.toNat_or, UInt32.toNat_and, UInt32.toNat_shiftLeft, shift,
    UInt32.toNat_not, UInt8.toNat_toUInt32, UInt32.reduceToNat, Nat.testBit_or, Nat.testBit_and]
  rw [inverted, Nat.testBit_two_pow_sub_succ (Nat.mod_lt _ (by decide))]
  simp only [Nat.testBit_mod_two_pow, Nat.testBit_shiftLeft, ones]
  grind

/-- A byte of the sector number is replaced in its place and nowhere else. -/
theorem byteOf_withSectorByte (sector : UInt32) {index : Nat} (bound : index < 4) (value : UInt8)
    (k : Nat) :
    byteOf (withSectorByte sector (UInt32.ofNat index) value) k =
      if index = k then value else byteOf sector k := by
  apply UInt8.toNat_inj.mp
  apply Nat.eq_of_testBit_eq
  intro i
  rw [testBit_byteOf, testBit_withSectorByte sector bound]
  by_cases low : i < 8
  · by_cases same : index = k
    · subst same
      simp [low]
    · have elsewhere : ¬ (8 * index ≤ 8 * k + i ∧ 8 * k + i < 8 * index + 8) := by omega
      rw [if_neg elsewhere, if_neg same, testBit_byteOf]
  · have high : 2 ^ 8 ≤ 2 ^ i := Nat.pow_le_pow_right (by decide) (Nat.not_lt.mp low)
    have none : ∀ byte : UInt8, byte.toNat.testBit i = false := by
      intro byte
      exact Nat.testBit_lt_two_pow (Nat.lt_of_lt_of_le byte.toNat_lt high)
    simp [low, none]

/-- The byte of the sector number that a write replaces, in view of the writes before. -/
def sectorByte? (past : List BusWrite) (address : UInt16) : Option Nat :=
  if Opens past ∧ 0x7FB0 ≤ address ∧ address ≤ 0x7FB3 then some (address.toNat - 0x7FB0) else none

/-- A write changes the sector number only in an open window, one byte at a time. -/
theorem take_sector (cart : FlashCart) (write : BusWrite) :
    (cart.take write).sector =
      if cart.unlocked = true ∧ 0x7FB0 ≤ write.address ∧ write.address ≤ 0x7FB3 then
        withSectorByte cart.sector (UInt32.ofNat (write.address.toNat - 0x7FB0)) write.value
      else cart.sector := by
  have index : 0x7FB0 ≤ write.address →
      (write.address - 0x7FB0).toUInt32 = UInt32.ofNat (write.address.toNat - 0x7FB0) := by
    intro above
    have distance : (write.address - 0x7FB0).toNat = write.address.toNat - 0x7FB0 :=
      UInt16.toNat_sub_of_le _ _ above
    rw [← distance]
    exact (UInt32.ofNat_uInt16ToNat _).symm
  unfold take FlashCart.write
  grind

/-- The byte of the sector number that a write replaces. -/
def sectorByteAt? (cart : FlashCart) (address : UInt16) : Option Nat :=
  if cart.unlocked = true ∧ 0x7FB0 ≤ address ∧ address ≤ 0x7FB3 then some (address.toNat - 0x7FB0)
  else none

/-- A write changes the byte of the sector number at its address. -/
theorem byteOf_take (cart : FlashCart) (write : BusWrite) (k : Nat) :
    byteOf (cart.take write).sector k =
      if cart.sectorByteAt? write.address = some k then write.value
      else byteOf cart.sector k := by
  rw [take_sector, sectorByteAt?]
  split
  next window =>
    have bound : write.address.toNat - 0x7FB0 < 4 := by
      have last : write.address.toNat ≤ 0x7FB3 := UInt16.le_iff_toNat_le.mp window.2.2
      omega
    rw [byteOf_withSectorByte cart.sector bound]
    simp
  next => simp

/-- Whatever is written while the window is shut asks for nothing and changes nothing behind the
window. -/
theorem ignored_of_shut {cart : FlashCart} (shut : cart.unlocked = false) (address : UInt16)
    (value : UInt8) :
    cart.command address value = none ∧ (cart.write address value).sector = cart.sector ∧
      (cart.write address value).sectorCount = cart.sectorCount := by
  refine ⟨?_, ?_, ?_⟩
  · simp [command, shut]
  · unfold FlashCart.write
    grind
  · unfold FlashCart.write
    grind

/-! ## All writes -/

/-- The writes before the next one. -/
def remember (past : List BusWrite) (write : BusWrite) : List BusWrite := past ++ [write]

/-- A write goes to the byte found for its address, if the window is open. -/
theorem take_tracks {past : List BusWrite} {cart : FlashCart} (write : BusWrite)
    (given : KeysGiven past cart) :
    KeysGiven (remember past write) (cart.take write) ∧
      ∀ k, byteOf (cart.take write).sector k =
        if sectorByte? past write.address = some k then write.value else byteOf cart.sector k := by
  have same : sectorByte? past write.address = cart.sectorByteAt? write.address := by
    simp only [sectorByte?, sectorByteAt?, given.unlocked_iff]
  refine ⟨given.take write, ?_⟩
  intro k
  rw [same, byteOf_take]

/-- Remembering writes one after the other is the list of them. -/
theorem remember_foldl (past writes : List BusWrite) :
    writes.foldl remember past = past ++ writes := by
  induction writes generalizing past with
  | nil => exact (List.append_nil past).symm
  | cons write later ih =>
    rw [List.foldl_cons, ih, remember, List.append_assoc]
    rfl

/-- However the writes to a new cartridge are mixed, its window is open exactly if the writes
that the lock looks at end with the three keys. While it is shut a write asks for nothing and
leaves the sector number and the count alone. The bytes of the sector number, the lowest
first, are those last written to their addresses while the window was open, zero if there
were none. -/
theorem window_opens_by_keys_only (image : Array UInt8) (writes : List BusWrite) :
    let cart : FlashCart := writes.foldl take { image }
    (cart.unlocked = true ↔ keys <:+ writes.filter reachesLock) ∧
    (cart.unlocked = false → ∀ address value, cart.command address value = none ∧
      (cart.write address value).sector = cart.sector ∧
      (cart.write address value).sectorCount = cart.sectorCount) ∧
    cart.sector.toNat = Nat.ofDigits 256 ([0, 1, 2, 3].map fun k =>
      ((lastWritten remember sectorByte? k [] writes).getD 0).toNat) := by
  intro cart
  have first : KeysGiven [] { image } := by
    intro n bound
    simp [keys, Lock.count]
  have allowed : ∀ write ∈ writes, True := fun _ _ => trivial
  obtain ⟨given, last⟩ := shown_foldl (fun (cart : FlashCart) => byteOf cart.sector) id
    (@fun past cart write given _ => @take_tracks past cart write given) writes allowed first
  rw [remember_foldl, List.nil_append] at given
  refine ⟨given.unlocked_iff, ignored_of_shut, ?_⟩
  have bytes : (fun k => (byteOf cart.sector k).toNat) = fun k =>
      ((lastWritten remember sectorByte? k [] writes).getD 0).toNat := by
    funext k
    have none : byteOf ({ image } : FlashCart).sector k = 0 := by simp [byteOf]
    rw [last k, none, Option.map_id_fun]
    rfl
  rw [toNat_eq_ofDigits, bytes]

/-- Writes to a new cartridge that open the window twice. Before, between and after that a byte
of the sector number is written to no avail, and among the keys there is a write that the
lock does not look at. -/
def mixedWrites : List BusWrite :=
  [⟨0x7FB3, 0x99⟩, ⟨0x7F20, 0xE3⟩, ⟨0x7F00, 0xE1⟩, ⟨0x7F10, 0xE2⟩, ⟨0x2000, 0x05⟩, ⟨0x7F20, 0xE3⟩,
    ⟨0x7FB2, 0x34⟩, ⟨0x7FB0, 0x77⟩, ⟨0x7FB0, 0x78⟩, ⟨0x7F00, 0xE1⟩, ⟨0x7FB0, 0x99⟩,
    ⟨0x7F10, 0xE2⟩, ⟨0x7F20, 0xE3⟩, ⟨0x7FB1, 0x56⟩, ⟨0x7F20, 0xE3⟩, ⟨0x7FB2, 0x99⟩]

/-- With the last key once more the window is shut again, and the sector number is that of the
writes that were heeded. -/
theorem window_opens_by_keys_only_mixed :
    let opened : FlashCart := (mixedWrites.take 14).foldl take {}
    let shut : FlashCart := mixedWrites.foldl take {}
    opened.unlocked = true ∧ shut.unlocked = false ∧ shut.command 0x7FE0 0x80 = none ∧
      shut.sector.toNat = 0x345678 := by
  intro opened shut
  obtain ⟨opens, -, -⟩ := window_opens_by_keys_only #[] (mixedWrites.take 14)
  obtain ⟨shuts, ignores, sector⟩ := window_opens_by_keys_only #[] mixedWrites
  have locked : shut.unlocked = false := by
    rw [← Bool.not_eq_true, shuts]
    decide
  refine ⟨opens.mpr (by decide), locked, (ignores locked 0x7FE0 0x80).1, sector.trans ?_⟩
  decide

end FlashCart

end Handheld
