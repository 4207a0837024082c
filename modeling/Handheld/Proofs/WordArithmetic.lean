import Handheld.Proofs.ByteArithmetic
import Handheld.Proofs.Work

/-!
# Word arithmetic

A word is kept in two registers, and arithmetic on words is done byte by byte. A step by one
writes the lower byte, and the upper one only if the lower one has wrapped; a sum is computed
from both words before either byte of it is written, so a word may be added to itself. Each of
these is exact modulo 2^16. An offset is added as a signed number, while its flags are those of
an unsigned addition of bytes.

The loads and stores that move HL on use the HL of old for the transfer.
-/

set_option autoImplicit false

namespace Handheld

open Decoder (accumulator)

instance (bound number : Int) : Decidable (Overflows bound number) :=
  inferInstanceAs (Decidable (_ ∨ _))

/-! ## Opcodes -/

/-- The two bits that select a pair of registers as a word. -/
def RegisterPair.code? : RegisterPair → Option Nat
  | .bc => some 0
  | .de => some 1
  | .hl => some 2
  | .sp => some 3
  | .af => none

/-- The pairs that an opcode can select do not include AF. -/
theorem RegisterPair.ne_af_of_code {pair : RegisterPair} {i : Nat} (code : pair.code? = some i) :
    pair ≠ .af := by
  rintro rfl
  cases code

/-- The registers of a pair other than AF keep what they are given, apart from each other. -/
theorem RegisterPair.apart_of_ne_af {pair : RegisterPair} (other : pair ≠ .af) :
    pair.high ≠ .f ∧ pair.low ≠ .f ∧ pair.high ≠ pair.low := by
  cases pair <;> first | contradiction | decide

section
variable {β : Type} [AddressSpace β] {registers : Registers} {memory : β} {address : UInt16}

/-- What is needed of the decoder: what an operation does, and by how much it moves HL. -/
theorem decode_wordStep {pair : RegisterPair} {i : Nat} (code : pair.code? = some i) (up : Bool)
    (opcode : (AddressSpace.read memory address).toNat = (if up then 0x03 else 0x0B) + 16 * i) :
    let decoded := (decode registers memory address).operation
    decoded.action = (if up then .inc16 pair.places else .dec16 pair.places) ∧
      decoded.hlStep = 0 := by
  rw [decode_of_opcode opcode]
  cases pair <;> cases code <;> cases up <;> exact ⟨rfl, rfl⟩

/-- The opcodes of the sums of words, decoded. -/
theorem decode_wordSum {pair : RegisterPair} {i : Nat} (code : pair.code? = some i)
    (opcode : (AddressSpace.read memory address).toNat = 0x09 + 16 * i) :
    let decoded := (decode registers memory address).operation
    decoded.action = .add16 RegisterPair.hl.places pair.places ∧ decoded.hlStep = 0 := by
  rw [decode_of_opcode opcode]
  cases pair <;> cases code <;> exact ⟨rfl, rfl⟩

/-- The opcodes of the two offsets from the stack pointer, decoded. -/
theorem decode_offset (toHl : Bool)
    (opcode : (AddressSpace.read memory address).toNat = if toHl then 0xF8 else 0xE8) :
    let decoded := (decode registers memory address).operation
    let offset := AddressSpace.resolve memory (address + 1)
    decoded.action = (if toHl then .loadStackOffset RegisterPair.hl.places offset
      else .addStackOffset RegisterPair.sp.places offset) ∧ decoded.hlStep = 0 := by
  rw [decode_of_opcode opcode]
  cases toHl <;> exact ⟨rfl, rfl⟩

/-- The opcodes of the stores that move HL, decoded. -/
theorem decode_movingStore (up : Bool)
    (opcode : (AddressSpace.read memory address).toNat = if up then 0x22 else 0x32) :
    let decoded := (decode registers memory address).operation
    decoded.action = .load8 (AddressSpace.resolve memory registers.hl) accumulator ∧
      decoded.hlStep = if up then 1 else -1 := by
  rw [decode_of_opcode opcode]
  cases up <;> exact ⟨rfl, rfl⟩

/-- The opcodes of the loads that move HL, decoded. -/
theorem decode_movingLoad (up : Bool)
    (opcode : (AddressSpace.read memory address).toNat = if up then 0x2A else 0x3A) :
    let decoded := (decode registers memory address).operation
    decoded.action = .load8 accumulator (AddressSpace.resolve memory registers.hl) ∧
      decoded.hlStep = if up then 1 else -1 := by
  rw [decode_of_opcode opcode]
  cases up <;> exact ⟨rfl, rfl⟩

end

/-! ## Numbers -/

/-- A signed word as an unsigned one is its remainder by 65536. -/
theorem toNat_toUInt16 (x : Int16) : (x.toUInt16.toNat : Int) = x.toInt % 0x10000 := by
  have small := x.toBitVec.isLt
  have size : (0x10000 : Int) = (2 ^ 16 : Nat) := rfl
  show (x.toBitVec.toNat : Int) = x.toBitVec.toInt % 0x10000
  rw [BitVec.toInt_eq_toNat_bmod, size, Int.bmod_emod]
  omega

/-- An offset is added with its sign. -/
theorem toNat_add_signExtend (x : UInt16) (offset : UInt8) :
    ((x + signExtend offset).toNat : Int) = (x.toNat + offset.toInt8.toInt) % 0x10000 := by
  have extended : ((signExtend offset).toNat : Int) = offset.toInt8.toInt % 0x10000 := by
    unfold signExtend
    rw [toNat_toUInt16, Int8.toInt_toInt16]
  rw [UInt16.toNat_add]
  omega

/-- A step of a word by one, byte by byte: the upper byte is stepped if the lower one wraps. -/
theorem toNat_stepBytes (high low : UInt8) (up : Bool) :
    let step : UInt8 := if up then 1 else 0xFF
    let wraps := low + step == if up then 0x00 else 0xFF
    (wraps = true ↔ Overflows 256 (low.toNat + if up then 1 else -1)) ∧
      ((word (if wraps then high + step else high) (low + step)).toNat : Int) =
        ((word high low).toNat + if up then 1 else -1) % 0x10000 := by
  intro step wraps
  have one : (1 : UInt8).toNat = 1 := rfl
  have last : (0xFF : UInt8).toNat = 255 := rfl
  have zero : (0 : UInt8).toNat = 0 := rfl
  have small := low.toNat_lt
  have wrapping : wraps = true ↔ Overflows 256 (low.toNat + if up then 1 else -1) := by
    unfold wraps step Overflows
    rw [beq_iff_eq, ← UInt8.toNat_inj, UInt8.toNat_add]
    cases up <;> simp only [Bool.false_eq_true, if_true, if_false] <;> omega
  refine ⟨wrapping, ?_⟩
  have big := high.toNat_lt
  -- A step up is carried into the upper byte when the lower one comes to 00, and a step down is
  -- borrowed from it when the lower one comes to FF.
  have upper : (if wraps then high + step else high).toNat =
      if Overflows 256 (low.toNat + if up then 1 else -1) then (high.toNat + step.toNat) % 256
      else high.toNat := by
    rw [apply_ite UInt8.toNat, UInt8.toNat_add]
    exact if_congr wrapping rfl rfl
  rw [toNat_word, toNat_word, upper, UInt8.toNat_add]
  unfold step Overflows
  cases up <;> simp only [Bool.false_eq_true, if_true, if_false] <;> split <;> omega

namespace System

variable {β : Type} [AddressSpace β] (s : System β)

/-! ## What is written -/

/-- A pair of registers was moved by `step`, and its upper byte was written only if the lower
one left its range. -/
structure WordStepped (step : Int) (pair : RegisterPair) (s t : System β) : Prop where
  word : ((t.cpu.registers.pair pair).toNat : Int) =
    ((s.cpu.registers.pair pair).toNat + step) % 0x10000
  flags : t.flags = s.flags
  low : t.origin? (.register pair.low) = none
  high : t.origin? (.register pair.high) =
    if Overflows 256 ((s.cpu.registers.get pair.low).toNat + step) then none
    else s.origin? (.register pair.high)
  elsewhere : ∀ r, r ∉ [pair.high, pair.low] → t.cpu.registers.get r = s.cpu.registers.get r

/-- A pair of registers was added to HL. -/
structure WordAdded (pair : RegisterPair) (s t : System β) : Prop where
  word : t.cpu.registers.hl.toNat =
    (s.cpu.registers.hl.toNat + (s.cpu.registers.pair pair).toNat) % 0x10000
  z : t.flags.z = s.flags.z
  n : t.flags.n = false
  h : t.flags.h = true ↔
    0x0FFF < s.cpu.registers.hl.toNat % 0x1000 + (s.cpu.registers.pair pair).toNat % 0x1000
  c : t.flags.c = true ↔
    0xFFFF < s.cpu.registers.hl.toNat + (s.cpu.registers.pair pair).toNat
  elsewhere : ∀ r, r ∉ [.h, .l, .f] → t.cpu.registers.get r = s.cpu.registers.get r

/-- The stack pointer, moved by a signed byte, was written to a pair of registers. -/
structure OffsetAdded (target : RegisterPair) (offset : UInt8) (s t : System β) : Prop where
  word : ((t.cpu.registers.pair target).toNat : Int) =
    (s.cpu.registers.sp.toNat + offset.toInt8.toInt) % 0x10000
  z : t.flags.z = false
  n : t.flags.n = false
  h : t.flags.h = true ↔ 0x0F < s.cpu.registers.sp.toNat % 0x10 + offset.toNat % 0x10
  c : t.flags.c = true ↔ 0xFF < s.cpu.registers.sp.toNat % 0x100 + offset.toNat
  elsewhere : ∀ r, r ∉ [target.high, target.low, .f] →
    t.cpu.registers.get r = s.cpu.registers.get r

/-- HL was moved by `step`, and no other register was written but those given. -/
structure HlMoved (step : Int) (written : List Register) (s t : System β) : Prop where
  word : (t.cpu.registers.hl.toNat : Int) = (s.cpu.registers.hl.toNat + step) % 0x10000
  flags : t.flags = s.flags
  elsewhere : ∀ r, r ∉ .h :: .l :: written → t.cpu.registers.get r = s.cpu.registers.get r

/-- A byte was written to a register. -/
structure RegisterWritten (r : Register) (value : UInt8) (s t : System β) : Prop where
  bus : t.bus = s.bus
  flags : t.flags = s.flags
  get : ∀ q, t.cpu.registers.get q = if q = r then value else s.cpu.registers.get q
  origin : ∀ q, t.origin? (.register q) = if q = r then none else s.origin? (.register q)

/-- A word was written to a pair of registers. -/
structure PairWritten (pair : RegisterPair) (value : UInt16) (s t : System β) : Prop where
  bus : t.bus = s.bus
  flags : t.flags = s.flags
  word : t.cpu.registers.pair pair = value
  elsewhere : ∀ r, r ∉ [pair.high, pair.low] → t.cpu.registers.get r = s.cpu.registers.get r

/-- A register other than the flags takes the byte that is written. -/
theorem registerWritten_write {r : Register} (notFlags : r ≠ .f) (value : UInt8) :
    RegisterWritten r value s (s.write (.register r) value) where
  bus := by simp
  flags := s.flags_write (by simpa using notFlags) value
  get q := by
    have whole : kept (.register r) value = value := if_neg (by simpa using notFlags)
    rw [get_write_register, whole]
  origin := s.origin?_write_register r value

/-- Bytes that are marked before a register is written change nothing more. -/
theorem RegisterWritten.of_marked {s u t : System β} {r : Register} {value : UInt8}
    (registers : u.cpu.registers = s.cpu.registers) (bus : u.bus = s.bus)
    (origin : ∀ r, u.origin? (.register r) = s.origin? (.register r))
    (written : RegisterWritten r value u t) : RegisterWritten r value s t where
  bus := written.bus.trans bus
  flags := written.flags.trans (congrArg Registers.flags registers)
  get q := by
    rw [written.get, registers]
  origin q := by
    rw [written.origin, origin]

/-- A word is written by writing its bytes, in either order. -/
theorem pairWritten_of_bytes {s t u : System β} {pair : RegisterPair} (other : pair ≠ .af)
    {value : UInt16} {first second : Register}
    (order : (first, second) = (pair.high, pair.low) ∨ (first, second) = (pair.low, pair.high))
    (one : RegisterWritten first (if first = pair.high then highByte value else lowByte value) s t)
    (two : RegisterWritten second (if second = pair.high then highByte value else lowByte value)
      t u) : PairWritten pair value s u := by
  obtain ⟨-, -, apart⟩ := RegisterPair.apart_of_ne_af other
  -- The two registers are apart, so the second byte does not displace the first.
  refine ⟨two.bus.trans one.bus, two.flags.trans one.flags, ?_, ?_⟩
  · show word (u.cpu.registers.get pair.high) (u.cpu.registers.get pair.low) = value
    rw [two.get, two.get, one.get, one.get]
    obtain ⟨rfl, rfl⟩ | ⟨rfl, rfl⟩ := order.imp Prod.mk.inj Prod.mk.inj
    all_goals simp [apart, apart.symm, word_bytes]
  · intro r outside
    obtain ⟨notHigh, notLow⟩ : r ≠ pair.high ∧ r ≠ pair.low := by simpa using outside
    rw [two.get, one.get]
    obtain ⟨rfl, rfl⟩ | ⟨rfl, rfl⟩ := order.imp Prod.mk.inj Prod.mk.inj
    all_goals rw [if_neg ‹_›, if_neg ‹_›]

/-- A register pair other than AF takes the word that is written. -/
theorem pairWritten_writeWord {pair : RegisterPair} (other : pair ≠ .af) (value : UInt16) :
    PairWritten pair value s (s.writeWord pair.places value) := by
  obtain ⟨notHigh, notLow, apart⟩ := RegisterPair.apart_of_ne_af other
  refine pairWritten_of_bytes other (.inr rfl) (t := s.write pair.places.low (lowByte value)) ?_ ?_
  · rw [if_neg apart.symm]
    exact s.registerWritten_write notLow _
  · rw [if_pos rfl]
    exact registerWritten_write _ notHigh _

/-- A register pair other than AF takes the word that is written to it as a pair. -/
theorem pairWritten_writePair {pair : RegisterPair} (other : pair ≠ .af) (value : UInt16) :
    PairWritten pair value s (s.writePair pair value) := by
  obtain ⟨notHigh, notLow, apart⟩ := RegisterPair.apart_of_ne_af other
  refine pairWritten_of_bytes other (.inl rfl)
    (t := s.write (.register pair.high) (highByte value)) ?_ ?_
  · rw [if_pos rfl]
    exact s.registerWritten_write notHigh _
  · rw [if_neg apart.symm]
    exact registerWritten_write _ notLow _

/-! ## Steps -/

/-- The upper byte is stepped as it was before the lower one was written. -/
theorem stepWord_eq {pair : RegisterPair} (other : pair ≠ .af) (step carries : UInt8) :
    let low := s.cpu.registers.get pair.low + step
    let marked := (s.markOrigin pair.places.low .wordLow).markOrigin pair.places.high .wordHigh
    let lower := marked.write (.register pair.low) low
    s.stepWord pair.places step carries =
      if low == carries then
        lower.write (.register pair.high) (s.cpu.registers.get pair.high + step)
      else lower := by
  intro low marked lower
  obtain ⟨-, notLow, apart⟩ := RegisterPair.apart_of_ne_af other
  have registers : marked.cpu.registers = s.cpu.registers := by simp [marked]
  have below : marked.load pair.places.low + step = low :=
    congrArg (fun registers => registers.get pair.low + step) registers
  have above : lower.load pair.places.high = s.cpu.registers.get pair.high := by
    show lower.cpu.registers.get pair.high = _
    rw [(marked.registerWritten_write notLow low).get, if_neg apart, registers]
  unfold stepWord
  dsimp only
  rw [below]
  show (if low == carries then lower.write pair.places.high (lower.load pair.places.high + step)
    else lower) = _
  rw [above]
  rfl

/-- The registers once a pair has been stepped, and their origins. -/
theorem stepWord_changes {pair : RegisterPair} (other : pair ≠ .af) (step carries : UInt8) :
    let t := s.stepWord pair.places step carries
    let low := s.cpu.registers.get pair.low + step
    t.bus = s.bus ∧ t.flags = s.flags ∧
      (∀ r, t.cpu.registers.get r =
        if r = pair.high ∧ (low == carries) = true then s.cpu.registers.get r + step
        else if r = pair.low then low else s.cpu.registers.get r) ∧
      ∀ r, t.origin? (.register r) =
        if r = pair.high ∧ (low == carries) = true ∨ r = pair.low then none
        else s.origin? (.register r) := by
  intro t low
  obtain ⟨notHigh, notLow, apart⟩ := RegisterPair.apart_of_ne_af other
  let marked := (s.markOrigin pair.places.low .wordLow).markOrigin pair.places.high .wordHigh
  let lower := marked.write (.register pair.low) low
  have one : RegisterWritten pair.low low s lower := by
    apply RegisterWritten.of_marked _ _ _ (marked.registerWritten_write notLow low)
    · simp [marked]
    · simp [marked]
    · intro r
      rw [origin?_markOrigin, origin?_markOrigin]
  have two := lower.registerWritten_write notHigh (s.cpu.registers.get pair.high + step)
  have written : t = if low == carries then _ else lower := s.stepWord_eq other step carries
  rw [written]
  by_cases wraps : (low == carries) = true
  · rw [if_pos wraps]
    refine ⟨two.bus.trans one.bus, two.flags.trans one.flags, ?_, ?_⟩
    · intro r
      rw [two.get, one.get]
      by_cases upper : r = pair.high <;> simp [upper, wraps]
    · intro r
      rw [two.origin, one.origin]
      by_cases upper : r = pair.high <;> simp [upper, wraps]
  · rw [if_neg wraps]
    refine ⟨one.bus, one.flags, ?_, ?_⟩
    · intro r
      have stays : ¬ (r = pair.high ∧ (low == carries) = true) := fun both => wraps both.2
      rw [one.get, if_neg stays]
    · intro r
      rw [one.origin]
      exact if_congr (or_iff_right (fun both => wraps both.2)).symm rfl rfl

/-- Counting a register pair up or down changes its word by one. -/
theorem wordStepped_stepWord {pair : RegisterPair} (other : pair ≠ .af) (up : Bool) :
    let t := s.stepWord pair.places (if up then 1 else 0xFF) (if up then 0x00 else 0xFF)
    WordStepped (if up then 1 else -1) pair s t ∧ t.bus = s.bus := by
  intro t
  obtain ⟨-, -, apart⟩ := RegisterPair.apart_of_ne_af other
  obtain ⟨bus, flags, get, origin⟩ :=
    s.stepWord_changes other (if up then 1 else 0xFF) (if up then 0x00 else 0xFF)
  obtain ⟨wraps, number⟩ :=
    toNat_stepBytes (s.cpu.registers.get pair.high) (s.cpu.registers.get pair.low) up
  refine ⟨⟨?_, flags, ?_, ?_, ?_⟩, bus⟩
  · have high := (get pair.high).trans (if_congr (and_iff_right rfl) rfl (if_neg apart))
    have low := (get pair.low).trans ((if_neg fun both => apart both.1.symm).trans (if_pos rfl))
    rwa [← high, ← low] at number
  · rw [origin, if_pos (.inr rfl)]
  · rw [origin]
    refine if_congr ?_ rfl rfl
    rw [or_iff_left apart, and_iff_right rfl, wraps]
  · intro r outside
    obtain ⟨notHigh, notLow⟩ : r ≠ pair.high ∧ r ≠ pair.low := by simpa using outside
    exact (get r).trans ((if_neg fun both => notHigh both.1).trans (if_neg notLow))

/-! ## Sums -/

/-- Both words are read before either byte of the sum is written. -/
theorem addWord_eq (target operand : PlacePair) :
    let marked := (((s.markOrigin operand.low .wordLow).markOrigin operand.high
      .wordHigh).markOrigin target.low .wordLow).markOrigin target.high .wordHigh
    let sum := addWords (s.loadWord target) (s.loadWord operand) s.flags
    s.addWord target operand = (marked.setFlags sum.2).writeWord target sum.1 := by
  intro marked sum
  simp only [addWord, loadWord, flags, load_markOrigin, markOrigin_cpu]
  rfl

/-- A sum of words is added to HL. -/
theorem wordAdded_addWord (pair : RegisterPair) :
    let t := s.addWord RegisterPair.hl.places pair.places
    WordAdded pair s t ∧ t.bus = s.bus := by
  intro t
  let sum := addWords s.cpu.registers.hl (s.cpu.registers.pair pair) s.flags
  obtain ⟨marked, registers, bus, added⟩ : ∃ marked : System β,
      marked.cpu.registers = s.cpu.registers ∧ marked.bus = s.bus ∧
        t = (marked.setFlags sum.2).writeWord RegisterPair.hl.places sum.1 :=
    ⟨_, by simp, by simp, s.addWord_eq RegisterPair.hl.places pair.places⟩
  have written := (marked.setFlags sum.2).pairWritten_writeWord
    (by decide : RegisterPair.hl ≠ .af) sum.1
  rw [← added] at written
  have flags : t.flags = sum.2 := written.flags
  refine ⟨⟨?_, ?_, ?_, ?_, ?_, ?_⟩, written.bus.trans bus⟩
  · rw [← UInt16.toNat_add]
    exact congrArg UInt16.toNat written.word
  · rw [flags]
    rfl
  · rw [flags]
    rfl
  · rw [flags]
    exact decide_eq_true_iff
  · rw [flags]
    exact decide_eq_true_iff
  · intro r outside
    obtain ⟨notH, notL, notFlags⟩ : r ≠ .h ∧ r ≠ .l ∧ r ≠ .f := by simpa using outside
    rw [written.elsewhere r (by simp [RegisterPair.high, RegisterPair.low, notH, notL]),
      get_setFlags _ _ notFlags, registers]

/-- An offset from the stack pointer arrives at its target with its flags. -/
theorem offsetAdded_writeStackOffset {target : RegisterPair} (other : target ≠ .af)
    (offset : Place) :
    let t := s.writeStackOffset target.places offset
    OffsetAdded target (s.load offset) s t ∧ t.bus = s.bus := by
  intro t
  let moved := offsetWord s.sp (s.load offset)
  have written := (s.setFlags moved.2).pairWritten_writeWord other moved.1
  have flags : t.flags = moved.2 := written.flags
  refine ⟨⟨?_, ?_, ?_, ?_, ?_, ?_⟩, written.bus⟩
  · rw [← toNat_add_signExtend]
    exact congrArg (fun value : UInt16 => (value.toNat : Int)) written.word
  · rw [flags]
    rfl
  · rw [flags]
    rfl
  · rw [flags]
    exact decide_eq_true_iff
  · rw [flags]
    exact decide_eq_true_iff
  · intro r outside
    obtain ⟨notHigh, notLow, notFlags⟩ : r ≠ target.high ∧ r ≠ target.low ∧ r ≠ .f := by
      simpa using outside
    exact (written.elsewhere r (by simp [notHigh, notLow])).trans (get_setFlags s _ notFlags)

/-! ## Moves of HL -/

/-- The step of HL moves it by one. -/
theorem hlMoved_stepHl (up : Bool) :
    let t := s.stepHl (if up then 1 else -1)
    HlMoved (if up then 1 else -1) [] s t ∧ t.bus = s.bus := by
  intro t
  let step : UInt16 := if up then 1 else 0xFFFF
  have written := s.pairWritten_writePair (by decide : RegisterPair.hl ≠ .af)
    (s.cpu.registers.hl + step)
  have moved : t = s.writePair .hl (s.cpu.registers.hl + step) := by
    have nonzero : (if up then 1 else -1 : Int8) ≠ 0 := by
      cases up <;> decide
    have extended : (if up then 1 else -1 : Int8).toInt16.toUInt16 = step := by
      cases up <;> decide
    unfold t stepHl
    rw [if_neg nonzero, extended]
  rw [← moved] at written
  refine ⟨⟨?_, written.flags, ?_⟩, written.bus⟩
  · have word : t.cpu.registers.hl = s.cpu.registers.hl + step := written.word
    have one : (1 : UInt16).toNat = 1 := rfl
    have last : (0xFFFF : UInt16).toNat = 0xFFFF := rfl
    rw [word, UInt16.toNat_add]
    unfold step
    cases up <;> simp only [Bool.false_eq_true, if_true, if_false] <;> omega
  · intro r outside
    exact written.elsewhere r outside

omit [AddressSpace β] in
variable {s} in
/-- HL is moved as it was before other registers were written. -/
theorem HlMoved.of_written {step : Int} {written : List Register} {u t : System β}
    (flags : u.flags = s.flags)
    (registers : ∀ r, r ∉ written → u.cpu.registers.get r = s.cpu.registers.get r)
    (h : .h ∉ written) (l : .l ∉ written) (moved : HlMoved step [] u t) :
    HlMoved step written s t where
  word := by
    have high : u.cpu.registers.h = s.cpu.registers.h := registers .h h
    have low : u.cpu.registers.l = s.cpu.registers.l := registers .l l
    rw [moved.word]
    unfold Registers.hl
    rw [high, low]
  flags := moved.flags.trans flags
  elsewhere r outside := by
    obtain ⟨notH, notL, notWritten⟩ : r ≠ .h ∧ r ≠ .l ∧ r ∉ written := by simpa using outside
    rw [moved.elsewhere r (by simp [notH, notL]), registers r notWritten]

/-! ## Execution -/

section
variable {s} {operation : Operation} {t : System β}

/-- Counting the length and the cycles of an operation leaves the registers alone. -/
theorem registers_ready (s : System β) (operation : Operation) :
    (s.ready operation).cpu.registers = s.cpu.registers := by
  rw [ready_cpu]

/-- Until an operation takes effect, no word changes. -/
theorem WordStepped.of_ready {step : Int} {pair : RegisterPair}
    (stepped : WordStepped step pair (s.ready operation) t) : WordStepped step pair s t := by
  obtain ⟨word, flags, low, high, elsewhere⟩ := stepped
  rw [registers_ready] at word high elsewhere
  rw [origin?_ready] at high
  exact ⟨word, flags.trans (s.flags_ready operation), low, high, elsewhere⟩

/-- A sum that is added after the instruction was counted is added to what was there before. -/
theorem WordAdded.of_ready {pair : RegisterPair}
    (added : WordAdded pair (s.ready operation) t) : WordAdded pair s t := by
  obtain ⟨word, z, n, h, c, elsewhere⟩ := added
  rw [registers_ready] at word h c elsewhere
  rw [flags_ready] at z
  exact ⟨word, z, n, h, c, elsewhere⟩

/-- An offset that is added after the instruction was counted is added to what was there before.
-/
theorem OffsetAdded.of_ready {target : RegisterPair} {offset : UInt8}
    (added : OffsetAdded target offset (s.ready operation) t) : OffsetAdded target offset s t := by
  obtain ⟨word, z, n, h, c, elsewhere⟩ := added
  rw [registers_ready] at word h c elsewhere
  exact ⟨word, z, n, h, c, elsewhere⟩

/-- A step of HL after the instruction was counted is a step of what was there before. -/
theorem HlMoved.of_ready {step : Int} {written : List Register}
    (moved : HlMoved step written (s.ready operation) t) : HlMoved step written s t := by
  obtain ⟨word, flags, elsewhere⟩ := moved
  rw [registers_ready] at word elsewhere
  exact ⟨word, flags.trans (s.flags_ready operation), elsewhere⟩

end

section
variable {registers : Registers} {memory : β} {address : UInt16}

/-- The instructions that count a register pair up or down change its word by one. -/
theorem wordStepped_execute {pair : RegisterPair} {i : Nat} (code : pair.code? = some i) (up : Bool)
    (encoded : (AddressSpace.read memory address).toNat = (if up then 0x03 else 0x0B) + 16 * i) :
    let decoded := (Handheld.decode registers memory address).operation
    WordStepped (if up then 1 else -1) pair s (s.execute decoded) ∧
      (s.execute decoded).bus = (s.ready decoded).bus := by
  intro decoded
  obtain ⟨action, plain⟩ := decode_wordStep code up encoded
  have executed : s.execute decoded = (s.ready decoded).stepWord pair.places
      (if up then 1 else 0xFF) (if up then 0x00 else 0xFF) := by
    rw [s.execute_of_plain plain, action]
    cases up <;> rfl
  obtain ⟨stepped, bus⟩ :=
    (s.ready decoded).wordStepped_stepWord (RegisterPair.ne_af_of_code code) up
  rw [executed]
  exact ⟨stepped.of_ready, bus⟩

/-- The instructions that add a register pair to HL do so. -/
theorem wordAdded_execute {pair : RegisterPair} {i : Nat} (code : pair.code? = some i)
    (encoded : (AddressSpace.read memory address).toNat = 0x09 + 16 * i) :
    let decoded := (Handheld.decode registers memory address).operation
    WordAdded pair s (s.execute decoded) ∧
      (s.execute decoded).bus = (s.ready decoded).bus := by
  intro decoded
  obtain ⟨action, plain⟩ := decode_wordSum code encoded
  have executed : s.execute decoded =
      (s.ready decoded).addWord RegisterPair.hl.places pair.places := by
    rw [s.execute_of_plain plain, action]
    rfl
  obtain ⟨added, bus⟩ := (s.ready decoded).wordAdded_addWord pair
  rw [executed]
  exact ⟨added.of_ready, bus⟩

/-- The instructions that add an offset to the stack pointer do so. -/
theorem offsetAdded_execute (toHl : Bool)
    (encoded : (AddressSpace.read memory address).toNat = if toHl then 0xF8 else 0xE8) :
    let decoded := (Handheld.decode registers memory address).operation
    let offset := (s.ready decoded).load (AddressSpace.resolve memory (address + 1))
    OffsetAdded (if toHl then .hl else .sp) offset s (s.execute decoded) ∧
      (s.execute decoded).bus = (s.ready decoded).bus := by
  intro decoded offset
  let target : RegisterPair := if toHl then .hl else .sp
  obtain ⟨action, plain⟩ := decode_offset toHl encoded
  have executed : s.execute decoded = (s.ready decoded).writeStackOffset target.places
      (AddressSpace.resolve memory (address + 1)) := by
    rw [s.execute_of_plain plain, action]
    cases toHl <;> rfl
  have other : target ≠ .af := by
    cases toHl <;> decide
  obtain ⟨added, bus⟩ := (s.ready decoded).offsetAdded_writeStackOffset other
    (AddressSpace.resolve memory (address + 1))
  rw [executed]
  exact ⟨added.of_ready, bus⟩

/-- A load uses the HL of old, and HL is moved then. -/
theorem loaded_execute (up : Bool)
    (encoded : (AddressSpace.read memory address).toNat = if up then 0x2A else 0x3A) :
    let decoded := (Handheld.decode registers memory address).operation
    HlMoved (if up then 1 else -1) [.a] s (s.execute decoded) ∧
      (s.execute decoded).bus = (s.ready decoded).bus ∧
      (s.execute decoded).cpu.registers.a =
        (s.ready decoded).load (AddressSpace.resolve memory registers.hl) := by
  intro decoded
  obtain ⟨action, moves⟩ := decode_movingLoad up encoded
  let next := s.ready decoded
  let place := AddressSpace.resolve memory registers.hl
  let loaded := (next.mark place .data).move accumulator place
  have executed : s.execute decoded = loaded.stepHl (if up then 1 else -1) := by
    show (next.act decoded.action).stepHl decoded.hlStep = _
    rw [action, moves]
    rfl
  have value : (next.mark place .data).load place = next.load place := by
    cases place <;> simp only [load, mark_cpu, mark_bus]
  have written : loaded.cpu.registers = next.cpu.registers.set .a (next.load place) := by
    show ((next.mark place .data).cpu.registers.set .a _) = _
    rw [mark_cpu, value]
  have bus : loaded.bus = next.bus := mark_bus ..
  obtain ⟨moved, same⟩ := loaded.hlMoved_stepHl up
  have whole : HlMoved (if up then 1 else -1) [.a] next
      (loaded.stepHl (if up then 1 else -1)) := by
    refine moved.of_written ?_ ?_ (by decide) (by decide)
    · show loaded.cpu.registers.flags = next.cpu.registers.flags
      rw [written]
      rfl
    · intro r outside
      rw [written, Registers.get_set, if_neg (by simpa using outside)]
  have kept : (loaded.stepHl (if up then 1 else -1)).cpu.registers.a = loaded.cpu.registers.a :=
    moved.elsewhere .a (by decide)
  rw [executed]
  refine ⟨whole.of_ready, same.trans bus, ?_⟩
  rw [kept, written]
  rfl

/-- So does a store, and since it reaches no register it does not get in the way of the move. -/
theorem stored_execute [AddressSpace.Lawful β] (up : Bool)
    (encoded : (AddressSpace.read memory address).toNat = if up then 0x22 else 0x32) :
    let decoded := (Handheld.decode registers memory address).operation
    HlMoved (if up then 1 else -1) [] s (s.execute decoded) ∧
      (s.execute decoded).bus = AddressSpace.store (s.ready decoded).bus
        (AddressSpace.resolve memory registers.hl) s.cpu.registers.a := by
  intro decoded
  obtain ⟨action, moves⟩ := decode_movingStore up encoded
  let next := s.ready decoded
  let place := AddressSpace.resolve memory registers.hl
  have outside : ∀ r, place ≠ .register r := AddressSpace.Lawful.resolve_ne_register memory _
  let stored := (next.mark accumulator .data).move place accumulator
  have executed : s.execute decoded = stored.stepHl (if up then 1 else -1) := by
    show (next.act decoded.action).stepHl decoded.hlStep = _
    rw [action, moves]
    rfl
  have cpu : stored.cpu = next.cpu := by
    rw [move_cpu, store_place _ outside, mark_cpu]
  have bus : stored.bus = AddressSpace.store next.bus place s.cpu.registers.a := by
    rw [move_bus, store_place _ outside, mark_bus]
    show AddressSpace.store _ place (next.mark _ _).cpu.registers.a = _
    rw [mark_cpu, registers_ready]
  obtain ⟨moved, same⟩ := stored.hlMoved_stepHl up
  have whole : HlMoved (if up then 1 else -1) [] next (stored.stepHl (if up then 1 else -1)) := by
    refine moved.of_written ?_ ?_ nofun nofun
    · exact congrArg (fun cpu => cpu.registers.flags) cpu
    · intro r _
      rw [cpu]
  rw [executed]
  exact ⟨whole.of_ready, same.trans bus⟩

end

/-- Word arithmetic is exact modulo 2^16, for every pair of registers. A step by one leaves the
flags alone and rewrites the upper byte, which loses its origin, only if the lower one wraps. A
sum, also that of HL and itself, sets the flags by the carries out of bits 11 and 15 and keeps
the zero flag. The stack pointer is moved by a signed byte, and the flags are the carries of its
lower byte and the byte as it stands. A load or store that moves HL by one uses the HL of old. -/
theorem word_arithmetic_exact [AddressSpace.Lawful β] (registers : Registers) (memory : β)
    (address : UInt16) (s : System β) :
    let opcode := (AddressSpace.read memory address).toNat
    let decoded := (Handheld.decode registers memory address).operation
    let next := s.ready decoded
    let t := s.execute decoded
    (∀ (pair : RegisterPair) (i : Nat), pair.code? = some i →
      (∀ up : Bool, opcode = (if up then 0x03 else 0x0B) + 16 * i →
        WordStepped (if up then 1 else -1) pair s t ∧ t.bus = next.bus) ∧
      (opcode = 0x09 + 16 * i → WordAdded pair s t ∧ t.bus = next.bus)) ∧
    (∀ toHl : Bool, opcode = (if toHl then 0xF8 else 0xE8) →
      OffsetAdded (if toHl then .hl else .sp)
        (next.load (AddressSpace.resolve memory (address + 1))) s t ∧ t.bus = next.bus) ∧
    let place := AddressSpace.resolve memory registers.hl
    ∀ up : Bool,
      (opcode = (if up then 0x22 else 0x32) →
        HlMoved (if up then 1 else -1) [] s t ∧
          t.bus = AddressSpace.store next.bus place s.cpu.registers.a) ∧
      (opcode = (if up then 0x2A else 0x3A) →
        HlMoved (if up then 1 else -1) [.a] s t ∧ t.bus = next.bus ∧
          t.cpu.registers.a = next.load place) :=
  ⟨fun _ _ code => ⟨s.wordStepped_execute code, s.wordAdded_execute code⟩,
    s.offsetAdded_execute, fun up => ⟨s.stored_execute up, s.loaded_execute up⟩⟩

/-- The lower byte of BC wraps, HL is doubled beyond its end, the stack pointer goes below zero,
and HL is moved down to where its upper byte changes. -/
theorem word_arithmetic_exact_of_wrapping :
    let registers : Registers := { b := 0x00, c := 0xFF, h := 0x80, l := 0x00 }
    let s (opcode : UInt8) : System FlatMemory :=
      { cpu := { registers }
        bus := (({} : FlatMemory).store (FlatMemory.place 1) 0xFF).store
          (FlatMemory.place 0) opcode }
    let t (opcode : UInt8) :=
      (s opcode).execute (Handheld.decode registers (s opcode).bus 0).operation
    ((t 0x03).cpu.registers.pair .bc = 0x0100 ∧ (t 0x03).origin? (.register .b) = none) ∧
      ((t 0x29).cpu.registers.hl = 0x0000 ∧ (t 0x29).flags.c = true) ∧
      (t 0xE8).cpu.registers.pair .sp = 0xFFFF ∧
      (t 0x32).cpu.registers.hl = 0x7FFF ∧ (t 0x3A).cpu.registers.hl = 0x7FFF := by
  intro registers s t
  have opcode (opcode : UInt8) : (AddressSpace.read (s opcode).bus 0).toNat = opcode.toNat :=
    congrArg UInt8.toNat (FlatMemory.read_store _ 0 opcode)
  have sound (opcode : UInt8) :=
    (s opcode).word_arithmetic_exact registers (s opcode).bus 0
  have equal {x y : UInt16} (same : (x.toNat : Int) = y.toNat) : x = y :=
    UInt16.toNat_inj.mp (Int.ofNat.inj same)
  have bc : (registers.pair .bc).toNat = 0x00FF := (by decide : (word 0x00 0xFF).toNat = 0x00FF)
  have hl : registers.hl.toNat = 0x8000 := (by decide : (word 0x80 0x00).toNat = 0x8000)
  have offset (operation : Operation) :
      ((s 0xE8).ready operation).load (FlatMemory.place 1) = 0xFF := by
    rw [load_ready rfl]
    refine (load_at _ 1).trans ?_
    show AddressSpace.read (FlatMemory.store _ (FlatMemory.place 0) 0xE8) 1 = 0xFF
    rw [FlatMemory.read_store_of_ne _ (by decide)]
    exact FlatMemory.read_store {} 1 0xFF
  have stepped : WordStepped 1 .bc (s 0x03) (t 0x03) :=
    (((sound 0x03).1 .bc 0 rfl).1 true ((opcode 0x03).trans rfl)).1
  have added : WordAdded .hl (s 0x29) (t 0x29) :=
    (((sound 0x29).1 .hl 2 rfl).2 ((opcode 0x29).trans rfl)).1
  have lowered : OffsetAdded .sp 0xFF (s 0xE8) (t 0xE8) := by
    rw [← offset]
    exact ((sound 0xE8).2.1 false ((opcode 0xE8).trans rfl)).1
  have stored : HlMoved (-1) [] (s 0x32) (t 0x32) :=
    (((sound 0x32).2.2 false).1 ((opcode 0x32).trans rfl)).1
  have loaded : HlMoved (-1) [.a] (s 0x3A) (t 0x3A) :=
    (((sound 0x3A).2.2 false).2 ((opcode 0x3A).trans rfl)).1
  have wrapped : (((t 0x03).cpu.registers.pair .bc).toNat : Int) =
      ((registers.pair .bc).toNat + 1) % 0x10000 := stepped.word
  have doubled : (t 0x29).cpu.registers.hl.toNat =
      (registers.hl.toNat + registers.hl.toNat) % 0x10000 := added.word
  have above : ((t 0x32).cpu.registers.hl.toNat : Int) = (registers.hl.toNat + -1) % 0x10000 :=
    stored.word
  have below : ((t 0x3A).cpu.registers.hl.toNat : Int) = (registers.hl.toNat + -1) % 0x10000 :=
    loaded.word
  rw [bc] at wrapped
  rw [hl] at doubled above below
  refine ⟨⟨equal (wrapped.trans (by decide)), ?_⟩,
    ⟨UInt16.toNat_inj.mp (doubled.trans (by decide)), ?_⟩, equal (lowered.word.trans (by decide)),
    equal (above.trans (by decide)), equal (below.trans (by decide))⟩
  · exact stepped.high.trans (if_pos (.inr (by decide)))
  · have carried : 0xFFFF < registers.hl.toNat + registers.hl.toNat := by
      rw [hl]
      decide
    exact added.c.mpr carried

end System

end Handheld
