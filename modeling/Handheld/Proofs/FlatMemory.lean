import Handheld.FlatMemory
import Handheld.Proofs.Interrupts
import Handheld.Proofs.Records
import Handheld.Proofs.Word

/-!
# A processor in flat memory

What is held at a place is a byte and the place from which that byte is on record to
come. In flat memory every place but the interrupt flag is as the processor left it, so
what the processor does there can be told place by place: each function through which
it touches bytes has one equation that says what is held at any place afterwards.
-/

set_option autoImplicit false

namespace Handheld

/-- The registers of a pair are apart from each other and from the stack pointer. -/
theorem RegisterPair.apart_of_ne_sp {pair : RegisterPair} (other : pair ≠ .sp) :
    (pair.high ≠ .spHigh ∧ pair.high ≠ .spLow) ∧ (pair.low ≠ .spHigh ∧ pair.low ≠ .spLow) ∧
      pair.low ≠ pair.high := by
  cases pair <;> first | contradiction | decide

/-- The two halves of a register pair are two places. -/
theorem RegisterPair.places_apart (pair : RegisterPair) : pair.places.low ≠ pair.places.high := by
  cases pair <;> decide

/-- No push or pop names the stack pointer. -/
theorem Decoder.stackPairOf_ne_sp (index : Nat) : stackPairOf index ≠ .sp := by
  unfold stackPairOf
  split <;> decide

/-! ## Places of flat memory -/

namespace FlatMemory

/-- The place of the byte at an address. -/
def place (address : UInt16) : Place := .wram address.toNat

/-- Each address has a place of its own. -/
theorem place_inj {a b : UInt16} : place a = place b ↔ a = b := by
  simp only [place, Place.wram.injEq, UInt16.toNat_inj]

/-- No address stands for a register. -/
theorem place_ne_register (address : UInt16) (r : Register) : place address ≠ .register r := by
  rintro ⟨⟩

/-- Flat memory has 64 KiB of bytes. -/
theorem present_wram (memory : FlatMemory) (n : Nat) :
    System.present memory (.wram n) = decide (n < 0x10000) := by
  show (memory.bytes[n]?).isSome = _
  by_cases inside : n < 0x10000 <;> simp [inside]

/-- Which places are there does not depend on the bytes. -/
theorem present_eq (memory other : FlatMemory) (p : Place) :
    System.present memory p = System.present other p := by
  cases p with
  | wram n => rw [present_wram, present_wram]
  | _ => rfl

/-- Every address stands for a byte that is there. -/
theorem present_place (memory : FlatMemory) (address : UInt16) :
    System.present memory (place address) = true := by
  rw [place, present_wram]
  exact decide_eq_true address.toNat_lt

/-- A place that holds a byte is a register or an index below 64 KiB. -/
theorem of_present {memory : FlatMemory} {p : Place} (here : System.present memory p = true) :
    (∃ r, p = .register r) ∨ ∃ n < 0x10000, p = .wram n := by
  cases p with
  | register r => exact .inl ⟨r, rfl⟩
  | wram n =>
    rw [present_wram] at here
    exact .inr ⟨n, of_decide_eq_true here, rfl⟩
  | _ => contradiction

/-- A place that is there is not the open bus. -/
theorem ne_openBus {memory : FlatMemory} {p : Place} (here : System.present memory p = true) :
    p ≠ .openBus := by
  rintro rfl
  contradiction

/-- A place that is there shares its home with no other place. -/
theorem home_eq_iff {memory : FlatMemory} {p q : Place} (here : System.present memory p = true) :
    q.home = p.home ↔ q = p := by
  obtain ⟨r, rfl⟩ | ⟨n, -, rfl⟩ := of_present here
  all_goals cases q <;> simp [Place.home]

/-- A store is read back at its place, and all other places keep their bytes. -/
theorem load_store (memory : FlatMemory) {n : Nat} (inside : n < 0x10000) (value : UInt8)
    (p : Place) :
    AddressSpace.load (memory.store (.wram n) value) p =
      if p = .wram n then value else AddressSpace.load memory p := by
  cases p with
  | wram k =>
    show ((memory.bytes.setIfInBounds n value)[k]?).getD 0xFF =
      if Place.wram k = Place.wram n then value else (memory.bytes[k]?).getD 0xFF
    rw [Vector.getElem?_setIfInBounds, if_pos inside]
    by_cases same : n = k
    · rw [if_pos same, same, if_pos rfl]
      rfl
    · rw [if_neg same, if_neg (fun equal => same (Place.wram.inj equal).symm)]
  | _ => rfl

/-- A store at the place of an address is read back there, and all other places keep their bytes.
-/
theorem load_store_place (memory : FlatMemory) (address : UInt16) (value : UInt8) (p : Place) :
    AddressSpace.load (memory.store (place address) value) p =
      if p = place address then value else AddressSpace.load memory p :=
  memory.load_store address.toNat_lt value p

/-- A store at the place of an address is read back at the address. -/
theorem read_store (memory : FlatMemory) (address : UInt16) (value : UInt8) :
    AddressSpace.read (memory.store (place address) value) address = value :=
  (memory.load_store_place address value (place address)).trans (if_pos rfl)

/-- A store at one address is not seen at another. -/
theorem read_store_of_ne (memory : FlatMemory) {address other : UInt16} (apart : other ≠ address)
    (value : UInt8) :
    AddressSpace.read (memory.store (place address) value) other =
      AddressSpace.read memory other :=
  (memory.load_store_place address value (place other)).trans
    (if_neg (fun same => apart (place_inj.mp same)))

/-- The byte at an address is the byte at its place. -/
theorem byteAt_eq (memory : FlatMemory) (address : UInt16) :
    memory.byteAt address = AddressSpace.load memory (place address) := by
  show _ = (memory.bytes[address.toNat]?).getD 0xFF
  rw [Vector.getElem?_eq_getElem address.toNat_lt]
  rfl

end FlatMemory

namespace System

open FlatMemory (place place_inj place_ne_register present_place)

/-! ## What is held -/

/-- The byte at a place, and the place from which it is on record to come. -/
def held (s : System FlatMemory) (p : Place) : UInt8 × Option Place := (s.load p, s.origin? p)

/-- The byte that a place keeps of one that is written to it. -/
def kept (p : Place) (value : UInt8) : UInt8 := if p = .register .f then value &&& 0xF0 else value

/-- Memory keeps every byte as it is. -/
theorem kept_place (address : UInt16) (value : UInt8) : kept (place address) value = value :=
  if_neg (place_ne_register address .f)

variable (s : System FlatMemory)

/-- What is held depends on the registers, the memory and the origins alone. -/
theorem held_eq {t : System FlatMemory} (cpu : t.cpu.registers = s.cpu.registers)
    (bus : t.bus = s.bus)
    (origins : ∀ q, (t.ledger.note q).origin = (s.ledger.note q).origin) (q : Place) :
    t.held q = s.held q := by
  have byte : t.load q = s.load q := by
    cases q <;> simp only [load, cpu, bus]
  have origin : t.origin? q = s.origin? q := by
    unfold origin? Ledger.origin?
    rw [bus, origins]
  rw [held, held, byte, origin]

/-- Marking a use changes nothing that is held. -/
theorem held_mark (p : Place) (usage : Usage) (q : Place) : (s.mark p usage).held q = s.held q := by
  apply s.held_eq
  · rw [mark_cpu]
  · rw [mark_bus]
  · intro q
    rw [mark_eq]
    show Note.origin (Ledger.note (if _ then _ else _) q) = _
    split
    · exact s.ledger.origin_mark p q usage _
    · rfl

/-- Marking the use of an origin changes nothing that is held. -/
theorem held_markOrigin (p : Place) (usage : Usage) (q : Place) :
    (s.markOrigin p usage).held q = s.held q := by
  unfold markOrigin
  split
  · exact s.held_mark _ usage q
  · rfl

/-- After a store its place shows what it keeps of the byte, and no other place changes. -/
theorem load_store {p : Place} (here : present s.bus p = true) (value : UInt8) (q : Place) :
    (s.store p value).load q = if q = p then kept p value else s.load q := by
  obtain ⟨r, rfl⟩ | ⟨n, inside, rfl⟩ := FlatMemory.of_present here
  · cases q with
    | register q =>
      show (s.cpu.registers.set r value).get q = if _ then kept (.register r) value else _
      rw [Registers.get_set]
      simp only [kept, Place.register.injEq]
      rfl
    | _ => rfl
  · cases q with
    | register q => rfl
    | _ => exact FlatMemory.load_store s.bus inside value _

/-- A store leaves the ledger to those who call it. -/
theorem store_ledger (p : Place) (value : UInt8) : (s.store p value).ledger = s.ledger := by
  cases p <;> rfl

/-- An origin is looked up in the ledger, for places that are there. -/
theorem origin?_eq (q : Place) (memory : FlatMemory) :
    s.origin? q = if present memory q then (s.ledger.note q).origin else none := by
  rw [FlatMemory.present_eq memory s.bus]
  rfl

/-- After a write its place holds the byte without an origin, and no other place changes. -/
theorem held_write {p : Place} (here : present s.bus p = true) (value : UInt8) (q : Place) :
    (s.write p value).held q = if q = p then (kept p value, none) else s.held q := by
  have byte : (s.write p value).load q = if q = p then kept p value else s.load q := by
    rw [← s.load_store here]
    cases q <;> simp only [load, write_cpu, write_bus]
  have booked : (s.write p value).ledger = s.ledger.clearOrigin p := by
    unfold write
    rw [clearOrigin_eq, store_ledger, FlatMemory.present_eq _ s.bus, here]
    rfl
  have origin : (s.write p value).origin? q = if q = p then none else s.origin? q := by
    rw [origin?_eq _ q s.bus, origin?_eq s q s.bus, booked]
    unfold Ledger.clearOrigin
    rw [Ledger.note_modify _ _ _ _ (FlatMemory.ne_openBus here)]
    simp only [FlatMemory.home_eq_iff here]
    by_cases same : q = p
    · rw [if_pos same, if_pos same, same, if_pos here]
    · rw [if_neg same, if_neg same]
  unfold held
  rw [byte, origin]
  split <;> rfl

/-- A byte that is moved comes from where its source does, or from its source. -/
theorem held_move {p : Place} (here : present s.bus p = true) (source q : Place) :
    (s.move p source).held q =
      if q = p then (kept p (s.held source).1, some ((s.held source).2.getD source))
      else s.held q := by
  have byte : (s.move p source).load q = if q = p then kept p (s.load source) else s.load q := by
    rw [← s.load_store here]
    cases q <;> simp only [load, move_cpu, move_bus]
  have booked : (s.move p source).ledger = s.ledger.link (present s.bus) p source := by
    show (s.store _ _).ledger.link (present (s.store _ _).bus) p source = _
    rw [store_ledger, funext (FlatMemory.present_eq _ s.bus)]
  have origin : (s.move p source).origin? q =
      if q = p then some ((s.origin? source).getD source) else s.origin? q := by
    rw [origin?_eq _ q s.bus, origin?_eq s q s.bus, booked,
      Ledger.origin_link _ _ _ here (FlatMemory.ne_openBus here)]
    simp only [FlatMemory.home_eq_iff here]
    by_cases same : q = p
    · rw [if_pos same, if_pos same, same, if_pos here]
      rfl
    · rw [if_neg same, if_neg same]
  unfold held
  rw [byte, origin]
  split <;> rfl

/-! ## What booking and timekeeping leave as it is -/

/-- A jump changes nothing that is held. -/
theorem held_jumpTo (address : UInt16) (q : Place) : (s.jumpTo address).held q = s.held q := rfl

/-- Decoding changes nothing that is held. -/
theorem held_decode (address : UInt16) (q : Place) :
    (s.decode address).1.held q = s.held q := by
  have marks : ∀ (marks : List Mark) (t : System FlatMemory),
      (marks.foldl applyMark t).held q = t.held q := by
    intro marks
    induction marks with
    | nil =>
      intro t
      rfl
    | cons mark marks ih =>
      intro t
      rw [List.foldl_cons, ih]
      cases mark with
      | place target usage => exact t.held_mark target usage q
      | originOf target usage => exact t.held_markOrigin target usage q
  exact marks _ s

/-- Counting the length and the cycles of an operation changes nothing that is held. -/
theorem held_ready (operation : Operation) (q : Place) : (s.ready operation).held q = s.held q := by
  have operands : ∀ count, ((s.mark (s.resolve s.cpu.pc) .instruction).markOperands s.cpu.pc
      count).held q = s.held q := by
    intro count
    induction count with
    | zero => exact s.held_mark _ _ q
    | succ count ih =>
      unfold markOperands
      rw [held_mark, ih]
  rw [← operands (operation.length.toNat - 1)]
  exact held_eq _ rfl rfl (fun _ => rfl) q

/-- A branch that is taken acts once its cycles are paid, with all that is held as it was. -/
theorem branch_ready (operation : Operation) {condition : Condition}
    (holds : condition.holds s.flags = true) (extra : UInt64)
    (taken : System FlatMemory → System FlatMemory) :
    ∃ paid : System FlatMemory,
      (s.ready operation).branch condition extra taken = taken paid ∧
        paid.cpu.pc = s.cpu.pc + operation.length.toUInt16 ∧ ∀ q, paid.held q = s.held q := by
  have met : condition.holds (s.ready operation).flags = true := by
    unfold flags
    rw [ready_cpu]
    exact holds
  have next : (s.ready operation).cpu.pc = s.cpu.pc + operation.length.toUInt16 :=
    congrArg Cpu.pc (s.ready_cpu operation)
  refine ⟨if condition = .always then s.ready operation else (s.ready operation).spend extra,
    if_pos met, ?_, ?_⟩
  · split <;> exact next
  · intro q
    rw [← s.held_ready operation]
    split <;> rfl

/-! ## The stack -/

/-- A stack pointer that is written holds its two bytes without origins. -/
theorem held_writeSp (value : UInt16) (q : Place) :
    (s.writePair .sp value).held q =
      if q = .register .spLow then (lowByte value, none)
      else if q = .register .spHigh then (highByte value, none)
      else s.held q := by
  unfold writePair
  rw [held_write _ rfl, held_write _ rfl]
  rfl

/-- Writing the stack pointer changes nothing in memory. -/
theorem held_writeSp_place (value address : UInt16) :
    (s.writePair .sp value).held (place address) = s.held (place address) := by
  rw [held_writeSp, if_neg (place_ne_register _ _), if_neg (place_ne_register _ _)]

/-- A stack pointer that is written is the value that was written. -/
theorem sp_writeSp (value : UInt16) : (s.writePair .sp value).sp = value := by
  show word ((s.writePair .sp value).held (.register .spHigh)).1
    ((s.writePair .sp value).held (.register .spLow)).1 = value
  rw [held_writeSp, held_writeSp, if_neg (by decide), if_pos rfl, if_pos rfl]
  exact word_bytes value

/-- What a move takes from a place: the byte there, with the origin of that byte or else the
place itself. -/
def taken (p : Place) : UInt8 × Option Place := ((s.held p).1, some ((s.held p).2.getD p))

/-- A word was put on the stack. -/
structure Pushed (s t : System FlatMemory) (high low : UInt8 × Option Place) : Prop where
  sp : t.sp = s.sp - 2
  high : t.held (place (s.sp - 1)) = high
  low : t.held (place (s.sp - 2)) = low
  elsewhere : ∀ a, a ≠ s.sp - 1 → a ≠ s.sp - 2 → t.held (place a) = s.held (place a)

/-- The origin of a place is part of what it holds. -/
theorem origin?_eq_held (p : Place) : s.origin? p = (s.held p).2 := rfl

/-- A register pair is the word that its halves hold. -/
theorem pair_eq_held (pair : RegisterPair) :
    s.cpu.registers.pair pair =
      word (s.held (.register pair.high)).1 (s.held (.register pair.low)).1 := rfl

/-- The stack pointer is told by what is held. -/
theorem sp_of_held {s t : System FlatMemory} (same : ∀ q, t.held q = s.held q) : t.sp = s.sp := by
  show word (t.held (.register .spHigh)).1 (t.held (.register .spLow)).1 = _
  rw [same, same]
  rfl

/-- A push is a matter of what is held before it and after it. -/
theorem Pushed.congr {s t s' t' : System FlatMemory} {high low : UInt8 × Option Place}
    (h : Pushed s t high low) (before : ∀ q, s'.held q = s.held q)
    (after : ∀ q, t'.held q = t.held q) : Pushed s' t' high low := by
  have sp := sp_of_held before
  refine ⟨?_, ?_, ?_, ?_⟩
  · rw [sp_of_held after, sp]
    exact h.sp
  · rw [after, sp]
    exact h.high
  · rw [after, sp]
    exact h.low
  · intro a notHigh notLow
    rw [sp] at notHigh notLow
    rw [after, before]
    exact h.elsewhere a notHigh notLow

/-- The word that was pushed is on top of the stack. -/
theorem Pushed.top {s t : System FlatMemory} {high low : UInt8 × Option Place}
    (h : Pushed s t high low) :
    t.sp + 1 = s.sp - 1 ∧ t.held (place (t.sp + 1)) = high ∧ t.held (place t.sp) = low := by
  have above : t.sp + 1 = s.sp - 1 := by
    rw [h.sp]
    grind
  rw [above, h.sp]
  exact ⟨rfl, h.high, h.low⟩

/-- The two bytes of a pushed word lie apart. -/
theorem below_ne (sp : UInt16) : sp - 1 ≠ sp - 2 := by
  grind

/-- Two bytes that were put below the stack pointer, the upper one first, are a word on the
stack once the stack pointer has moved. -/
theorem pushed_of_bytes {upper lower : System FlatMemory} {high low : UInt8 × Option Place}
    (first : ∀ q, upper.held q = if q = place (s.sp - 1) then high else s.held q)
    (second : ∀ q, lower.held q = if q = place (s.sp - 2) then low else upper.held q) :
    Pushed s (lower.writePair .sp (s.sp - 2)) high low := by
  have pushed : ∀ a, (lower.writePair .sp (s.sp - 2)).held (place a) =
      if a = s.sp - 2 then low else if a = s.sp - 1 then high else s.held (place a) := by
    intro a
    rw [held_writeSp_place, second, first]
    simp only [place_inj]
  refine ⟨lower.sp_writeSp _, ?_, ?_, ?_⟩
  · rw [pushed, if_neg (below_ne s.sp), if_pos rfl]
  · rw [pushed, if_pos rfl]
  · intro a notHigh notLow
    rw [pushed, if_neg notLow, if_neg notHigh]

/-- A push puts the two halves of a register pair on the stack, with their origins. -/
theorem pushed_push (pair : RegisterPair) :
    Pushed s (s.push pair.places) (s.taken (.register pair.high))
      (s.taken (.register pair.low)) := by
  let upper := s.move (place (s.sp - 1)) (.register pair.high)
  have first : ∀ q, upper.held q =
      if q = place (s.sp - 1) then s.taken (.register pair.high) else s.held q := by
    intro q
    rw [s.held_move (present_place _ _), kept_place]
    rfl
  have second : ∀ q, (upper.move (place (s.sp - 2)) (.register pair.low)).held q =
      if q = place (s.sp - 2) then s.taken (.register pair.low) else upper.held q := by
    intro q
    rw [upper.held_move (present_place _ _), kept_place, first (.register pair.low),
      if_neg (place_ne_register _ _).symm]
    rfl
  exact s.pushed_of_bytes first second

/-- The program counter is pushed without origins. -/
theorem pushed_pushPc : Pushed s s.pushPc (highByte s.cpu.pc, none) (lowByte s.cpu.pc, none) := by
  let upper := s.write (place (s.sp - 1)) (highByte s.cpu.pc)
  have first : ∀ q, upper.held q =
      if q = place (s.sp - 1) then (highByte s.cpu.pc, none) else s.held q := by
    intro q
    rw [s.held_write (present_place _ _), kept_place]
  have second : ∀ q, (upper.write (place (s.sp - 2)) (lowByte s.cpu.pc)).held q =
      if q = place (s.sp - 2) then (lowByte s.cpu.pc, none) else upper.held q := by
    intro q
    rw [upper.held_write (present_place _ _), kept_place]
  exact s.pushed_of_bytes first second

/-- A word was taken from the stack. -/
structure Popped (s t : System FlatMemory) : Prop where
  sp : t.sp = s.sp + 2
  memory : ∀ a, t.held (place a) = s.held (place a)

/-- A pop undoes what a push did to the stack pointer. -/
theorem Popped.sp_of_pushed {s t u v : System FlatMemory} {high low : UInt8 × Option Place}
    (popped : Popped u v) (pushed : Pushed s t high low) (level : u.sp = t.sp) : v.sp = s.sp := by
  rw [popped.sp, level, pushed.sp]
  grind

/-- Popping a return address continues at the word on top of the stack. -/
theorem popped_popPc :
    Popped s s.popPc ∧
      s.popPc.cpu.pc = word (s.held (place (s.sp + 1))).1 (s.held (place s.sp)).1 := by
  let lower := s.markOrigin (place s.sp) .pointerLow
  let both := lower.markOrigin (place (s.sp + 1)) .pointerHigh
  have same : ∀ q, both.held q = s.held q := by
    intro q
    rw [lower.held_markOrigin, s.held_markOrigin]
  let jumped := both.jumpTo (both.loadWord ⟨place (s.sp + 1), place s.sp⟩)
  refine ⟨⟨jumped.sp_writeSp _, ?_⟩, ?_⟩
  · intro a
    show (jumped.writePair .sp (s.sp + 2)).held (place a) = _
    rw [held_writeSp_place]
    exact same (place a)
  · have sameControl := congrArg Cpu.pc (jumped.writePair_control .sp (s.sp + 2))
    have jumps : s.popPc.cpu.pc = jumped.cpu.pc := sameControl
    rw [jumps]
    show word (both.held (place (s.sp + 1))).1 (both.held (place s.sp)).1 = _
    rw [same, same]

/-- What a pair holds after a word was moved to it from the stack. -/
theorem popped_pop {pair : RegisterPair} (other : pair ≠ .sp) :
    let t := s.pop pair.places
    let upper := s.taken (place (s.sp + 1))
    let lower := s.taken (place s.sp)
    Popped s t ∧
      t.held (.register pair.high) = (kept (.register pair.high) upper.1, upper.2) ∧
      t.held (.register pair.low) = (kept (.register pair.low) lower.1, lower.2) := by
  obtain ⟨highOutside, lowOutside, differ⟩ := RegisterPair.apart_of_ne_sp other
  let first := s.move (.register pair.low) (place s.sp)
  let second := first.move (.register pair.high) (place (s.sp + 1))
  have firstHeld : ∀ q, first.held q =
      if q = .register pair.low then
        (kept (.register pair.low) (s.taken (place s.sp)).1, (s.taken (place s.sp)).2)
      else s.held q := by
    intro q
    exact s.held_move rfl (place s.sp) q
  have secondHeld : ∀ q, second.held q =
      if q = .register pair.high then
        (kept (.register pair.high) (s.taken (place (s.sp + 1))).1,
          (s.taken (place (s.sp + 1))).2)
      else first.held q := by
    intro q
    rw [first.held_move rfl, firstHeld (place (s.sp + 1)), if_neg (place_ne_register _ _)]
    rfl
  have popped : ∀ q, (s.pop pair.places).held q = (second.writePair .sp (s.sp + 2)).held q :=
    fun _ => rfl
  refine ⟨⟨second.sp_writeSp _, ?_⟩, ?_, ?_⟩
  · intro a
    rw [popped, held_writeSp_place, secondHeld, if_neg (place_ne_register _ _), firstHeld,
      if_neg (place_ne_register _ _)]
  · rw [popped, held_writeSp, if_neg (by simpa using highOutside.2),
      if_neg (by simpa using highOutside.1), secondHeld, if_pos rfl]
  · rw [popped, held_writeSp, if_neg (by simpa using lowOutside.2),
      if_neg (by simpa using lowOutside.1), secondHeld, if_neg (by simpa using differ),
      firstHeld, if_pos rfl]

/-! ## Interrupts -/

/-- The pending interrupts are the low five bits that both interrupt registers hold. -/
theorem pending_eq :
    s.pending =
      (s.held (place 0xFF0F)).1 &&& 0x1F &&& (s.held (place 0xFFFF)).1 &&& 0x1F := by
  show s.bus.byteAt 0xFF0F &&& 0x1F &&& s.bus.byteAt 0xFFFF &&& 0x1F = _
  rw [FlatMemory.byteAt_eq, FlatMemory.byteAt_eq]
  rfl

/-- A dispatch takes back the request, which changes the byte at FF0F, and enters the handler. -/
theorem dispatch_eq (source : Interrupt) :
    ∃ r : System FlatMemory,
      s.dispatch source = r.enterHandler source.vector ∧ r.cpu = s.cpu ∧
        ∀ q, r.held q =
          if q = place 0xFF0F then
            ((s.held q).1 &&& 0x1F &&& ~~~ source.mask &&& 0x1F, (s.held q).2)
          else s.held q := by
  obtain ⟨cpu, bus, ledger, journal⟩ := s
  let requested := AddressSpace.interruptFlag bus
  let flagged : FlatMemory := AddressSpace.setInterruptFlag bus (requested &&& ~~~ source.mask)
  let event := Event.interrupt source cpu.pc cpu.registers.sp requested
    (AddressSpace.interruptEnable bus)
  let before : System FlatMemory := ⟨cpu, bus, ledger, journal⟩
  let after : System FlatMemory := ⟨cpu, flagged, ledger, journal.push event⟩
  have byte : ∀ q, after.load q =
      if q = place 0xFF0F then before.load q &&& 0x1F &&& ~~~ source.mask &&& 0x1F
      else before.load q := by
    intro q
    have stored := FlatMemory.load_store bus (by decide : 0xFF0F < 0x10000)
      (requested &&& ~~~ source.mask &&& 0x1F)
    by_cases flag : q = place 0xFF0F
    · rw [if_pos flag, flag]
      show AddressSpace.load (bus.store (.wram 0xFF0F) _) (.wram 0xFF0F) = _
      rw [stored, if_pos rfl]
      show bus.byteAt 0xFF0F &&& 0x1F &&& _ &&& _ = _
      rw [FlatMemory.byteAt_eq]
      rfl
    · rw [if_neg flag]
      cases q with
      | register r => rfl
      | _ => exact (stored _).trans (if_neg flag)
  have origin : ∀ q, after.origin? q = before.origin? q := by
    intro q
    rw [after.origin?_eq q bus]
    rfl
  refine ⟨after, rfl, rfl, ?_⟩
  intro q
  unfold held
  rw [byte, origin]
  split <;> rfl

/-- Entering a handler pushes the program counter. -/
theorem pushed_enterHandler (vector : UInt16) :
    s.Pushed (s.enterHandler vector) (highByte s.cpu.pc, none) (lowByte s.cpu.pc, none) := by
  have pushed := ((s.spend 20).setInterrupts false).pushed_pushPc
  exact pushed.congr (fun _ => rfl) (held_jumpTo _ vector)

/-- An interrupt check that finds an interrupt dispatches one. -/
theorem dispatch_of_check (dispatched : s.serviceInterrupts.2 ≠ 0) :
    ∃ source, s.serviceInterrupts.1 = s.wake.dispatch source := by
  obtain nothing | woken | ⟨source, dispatch⟩ := s.serviceInterrupts_cases
  · rw [nothing] at dispatched
    contradiction
  · rw [woken] at dispatched
    contradiction
  · rw [dispatch]
    exact ⟨source, rfl⟩

/-- An interrupt check that finds none changes nothing that is held. -/
theorem held_of_idle (idle : s.serviceInterrupts.2 = 0) (q : Place) :
    s.serviceInterrupts.1.held q = s.held q := by
  obtain nothing | woken | ⟨source, dispatch⟩ := s.serviceInterrupts_cases
  · rw [nothing]
  · rw [woken]
    rfl
  · have took : (20 : UInt32) ≠ 0 := by decide
    rw [dispatch] at idle
    exact absurd idle took

end System

end Handheld
