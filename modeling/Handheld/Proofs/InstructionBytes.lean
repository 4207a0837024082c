import Mathlib.Tactic.IntervalCases
import Handheld.Proofs.FlatMemory
import Handheld.Proofs.Opcodes
import Handheld.Proofs.Simulation.Decode

/-!
# The bytes of an instruction

An instruction is told by its own bytes, as many as its length says. The decoder looks up the
places of the two bytes behind an opcode in any case, but what comes of it depends on them only
if they belong to the instruction.

* The same bytes are decoded to the same operation (`decode_of_sameBytes`), whatever follows.
* What an operation refers to is a byte of the instruction, a register, or a byte whose address
  the registers and the bytes of the instruction tell (`RefersWithin`).
* The remarks on places are on bytes of the instruction (`MarksWithin`).
-/

set_option autoImplicit false

namespace Handheld

/-- The opcodes whose operand is the byte that follows: loads, relative jumps, arithmetic, and
the two that move the stack pointer. -/
def withByte : List Nat :=
  [0x06, 0x0E, 0x16, 0x1E, 0x26, 0x2E, 0x36, 0x3E,
    0x18, 0x20, 0x28, 0x30, 0x38,
    0xC6, 0xCE, 0xD6, 0xDE, 0xE6, 0xEE, 0xF6, 0xFE,
    0xE8, 0xF8]

/-- The opcodes whose operand is the word that follows: loads, jumps, and calls. -/
def withWord : List Nat :=
  [0x01, 0x11, 0x21, 0x31,
    0xC2, 0xC3, 0xCA, 0xD2, 0xDA,
    0xC4, 0xCC, 0xCD, 0xD4, 0xDC]

/-- How many of the bytes that follow an opcode are operands themselves. -/
def immediateCount (opcode : Nat) : Nat :=
  if opcode ∈ withWord then 2 else if opcode ∈ withByte then 1 else 0

section
variable {β : Type} [AddressSpace β] (registers : Registers) (memory : β) (address : UInt16)

/-- The places at which an operand of an instruction of `length` bytes may lie that is not a byte
of the instruction itself. -/
inductive Addressed (length : Nat) : Place → Prop where
  | register (r : Register) : Addressed length (.register r)
  | pair (pair : RegisterPair) :
    Addressed length (AddressSpace.resolve memory (registers.pair pair))
  | device : Addressed length (Decoder.devicePlace memory registers.c)
  | deviceAt (inside : 1 < length) :
    Addressed length (Decoder.devicePlace memory (AddressSpace.read memory (address + 1)))
  | absolute (inside : 2 < length) : Addressed length (AddressSpace.resolve memory
      (word (AddressSpace.read memory (address + 2)) (AddressSpace.read memory (address + 1))))
  | absoluteNext (inside : 2 < length) : Addressed length (AddressSpace.resolve memory
      (word (AddressSpace.read memory (address + 2)) (AddressSpace.read memory (address + 1)) + 1))

/-- The first `count` bytes that follow the opcode are the source of an operation, and belong to
its instruction. Its other operands are elsewhere. -/
structure RefersWithin (count length : Nat) (operands : Operands) : Prop where
  inside : count < length
  low : 1 ≤ count → operands.sourceLow = some (AddressSpace.resolve memory (address + 1))
  high : 2 ≤ count → operands.sourceHigh = some (AddressSpace.resolve memory (address + 2))
  sourceLow : count < 1 → ∀ p ∈ operands.sourceLow, Addressed registers memory address length p
  sourceHigh : count < 2 → ∀ p ∈ operands.sourceHigh, Addressed registers memory address length p
  destinationLow : ∀ p ∈ operands.destinationLow, Addressed registers memory address length p
  destinationHigh : ∀ p ∈ operands.destinationHigh, Addressed registers memory address length p

/-- The remarks on places are on the first `length` bytes from an address on. -/
def MarksWithin (length : Nat) (marks : List Mark) : Prop :=
  ∀ place usage, .place place usage ∈ marks →
    ∃ n < length, place = AddressSpace.resolve memory (address + UInt16.ofNat n)

/-- What is decoded stays within the bytes of the instruction, of which `count` are operands. -/
structure StaysWithin (count : Nat) (decoded : Decoded) : Prop where
  refers : RefersWithin registers memory address count decoded.operation.length.toNat
    decoded.operation.action.operands
  marks : MarksWithin memory address decoded.operation.length.toNat decoded.marks

end

/-- The identity leaves every action as it is. -/
theorem Action.image_id (action : Action) : action.image id = action := by
  cases action <;> rfl

/-- The same count, from the fields of an opcode. -/
def immediates (x y z : Nat) : Nat :=
  match x, z with
  | 0, 0 => if y < 3 then 0 else 1
  | 0, 1 => if y % 2 = 0 then 2 else 0
  | 0, 6 => 1
  | 3, 0 => if y = 5 ∨ y = 7 then 1 else 0
  | 3, 2 => if y < 4 then 2 else 0
  | 3, 3 => if y = 0 then 2 else 0
  | 3, 4 => if y < 4 then 2 else 0
  | 3, 5 => if y = 1 then 2 else 0
  | 3, 6 => 1
  | _, _ => 0

/-- How many immediate bytes an opcode has depends on its three fields. -/
theorem immediateCount_eq (opcode : UInt8) :
    immediateCount opcode.toNat =
      immediates (opcode.toNat / 64) (opcode.toNat / 8 % 8) (opcode.toNat % 8) := by
  have all : ∀ n : Fin 256, immediateCount n = immediates (n / 64) (n / 8 % 8) (n % 8) := by
    decide +kernel
  exact all ⟨opcode.toNat, opcode.toNat_lt⟩

/-! ## What an operation refers to -/

section
variable {β : Type} [AddressSpace β] {registers : Registers} {memory : β} {address : UInt16}
  {length : Nat} {operands : Operands}

/-- A place that is addressed may be an operand. -/
theorem addressed_some {p : Place} (addressed : Addressed registers memory address length p) :
    ∀ q ∈ some p, Addressed registers memory address length q := by
  rintro _ ⟨⟩
  exact addressed

/-- A missing operand needs no address. -/
theorem addressed_none : ∀ q ∈ (none : Option Place),
    Addressed registers memory address length q := by
  rintro _ ⟨⟩

/-- A register may be an operand. -/
theorem addressed_register (r : Register) :
    ∀ q ∈ some (.register r), Addressed registers memory address length q :=
  addressed_some (.register r)

/-- What a selector names may be an operand. -/
theorem addressed_byteOperand (index : Nat) :
    ∀ q ∈ some (Decoder.byteOperand registers memory index),
      Addressed registers memory address length q := by
  apply addressed_some
  unfold Decoder.byteOperand
  split
  all_goals first | exact .register _ | exact .pair .hl

/-- Operands that are addressed refer to no byte of the instruction. -/
theorem refers_elsewhere (fits : 0 < length)
    (sourceLow : ∀ p ∈ operands.sourceLow, Addressed registers memory address length p)
    (sourceHigh : ∀ p ∈ operands.sourceHigh, Addressed registers memory address length p)
    (destinationLow : ∀ p ∈ operands.destinationLow, Addressed registers memory address length p)
    (destinationHigh :
      ∀ p ∈ operands.destinationHigh, Addressed registers memory address length p) :
    RefersWithin registers memory address 0 length operands :=
  ⟨fits, nofun, nofun, fun _ => sourceLow, fun _ => sourceHigh, destinationLow, destinationHigh⟩

/-- An operation of one immediate byte refers to that byte of the instruction. -/
theorem refers_byte (fits : 1 < length)
    (low : operands.sourceLow = some (Decoder.immediateWord memory address).low)
    (none : operands.sourceHigh = none)
    (destinationLow : ∀ p ∈ operands.destinationLow, Addressed registers memory address length p)
    (destinationHigh :
      ∀ p ∈ operands.destinationHigh, Addressed registers memory address length p) :
    RefersWithin registers memory address 1 length operands where
  inside := fits
  low _ := low
  high := nofun
  sourceLow := nofun
  sourceHigh _ p mem := by
    rw [none] at mem
    cases mem
  destinationLow := destinationLow
  destinationHigh := destinationHigh

/-- An operation of an immediate word refers to its two bytes of the instruction. -/
theorem refers_word (fits : 2 < length)
    (low : operands.sourceLow = some (Decoder.immediateWord memory address).low)
    (high : operands.sourceHigh = some (Decoder.immediateWord memory address).high)
    (destinationLow : ∀ p ∈ operands.destinationLow, Addressed registers memory address length p)
    (destinationHigh :
      ∀ p ∈ operands.destinationHigh, Addressed registers memory address length p) :
    RefersWithin registers memory address 2 length operands where
  inside := fits
  low _ := low
  high _ := high
  sourceLow few := absurd few (by decide)
  sourceHigh few := absurd few (by decide)
  destinationLow := destinationLow
  destinationHigh := destinationHigh

/-! ## Remarks on places -/

/-- No remarks are within any instruction. -/
theorem marksWithin_nil : MarksWithin memory address length [] := by
  intro place usage mem
  cases mem

/-- The remarks on a pointer are on registers, so within any instruction. -/
theorem marksWithin_pointer (pair : RegisterPair) :
    MarksWithin memory address length (Decoder.pointerMarks pair) := by
  intro place usage mem
  simp [Decoder.pointerMarks] at mem

/-- The remarks on an operand are on registers, so within any instruction. -/
theorem marksWithin_operand (index : Nat) :
    MarksWithin memory address length (Decoder.operandMarks index) := by
  unfold Decoder.operandMarks
  split
  · exact marksWithin_pointer .hl
  · exact marksWithin_nil

/-- Two lists of remarks within an instruction are so together. -/
theorem marksWithin_append {first second : List Mark}
    (before : MarksWithin memory address length first)
    (after : MarksWithin memory address length second) :
    MarksWithin memory address length (first ++ second) := by
  intro place usage mem
  exact (List.mem_append.mp mem).elim (before place usage) (after place usage)

/-- The remarks on an immediate word, in either order. -/
theorem marksWithin_word (fits : 2 < length) (first second : Usage) :
    let immediate := Decoder.immediateWord memory address
    MarksWithin memory address length [.place immediate.high first, .place immediate.low second] ∧
      MarksWithin memory address length
        [.place immediate.low second, .place immediate.high first] := by
  intro immediate
  have low : ∃ n < length, immediate.low =
      AddressSpace.resolve memory (address + UInt16.ofNat n) := ⟨1, by omega, rfl⟩
  have high : ∃ n < length, immediate.high =
      AddressSpace.resolve memory (address + UInt16.ofNat n) := ⟨2, fits, rfl⟩
  constructor
  all_goals
    intro place usage mem
    simp only [List.mem_cons, Mark.place.injEq, List.not_mem_nil, or_false] at mem
    obtain ⟨rfl, -⟩ | ⟨rfl, -⟩ := mem
    all_goals first | exact low | exact high

end

/-! ## The quarters -/

variable {β : Type} [AddressSpace β]

namespace Decoder

variable (registers : Registers) (memory : β) (address : UInt16)

/-- One byte has room for the opcode. -/
theorem byte_fits : 0 < (1 : UInt8).toNat := by decide

/-- Two bytes have room for an immediate byte. -/
theorem two_fit : 1 < (2 : UInt8).toNat := by decide

/-- Three bytes have room for an immediate word. -/
theorem three_fit : 2 < (3 : UInt8).toNat := by decide

/-- An instruction of one byte without operands. -/
theorem within_alone {action : Action} (nothing : action.operands = {}) (cycles : UInt32) :
    StaysWithin registers memory address 0 (plain action 1 cycles) := by
  refine ⟨?_, marksWithin_nil⟩
  show RefersWithin _ _ _ 0 1 action.operands
  rw [nothing]
  exact refers_elsewhere byte_fits addressed_none addressed_none addressed_none addressed_none

/-- An instruction whose only operand is the word that follows the opcode. -/
theorem within_immediateWord {action : Action} (target : action.operands =
      { sourceHigh := some (immediateWord memory address).high
        sourceLow := some (immediateWord memory address).low }) (cycles : UInt32) :
    StaysWithin registers memory address 2 (plain action 3 cycles) := by
  refine ⟨?_, marksWithin_nil⟩
  show RefersWithin _ _ _ 2 3 action.operands
  rw [target]
  exact refers_word three_fit rfl rfl addressed_none addressed_none

/-- The loads through register pairs stay within one byte. -/
theorem within_indirectLoad (y : Nat) :
    StaysWithin registers memory address 0 (indirectLoad registers memory y) := by
  have through (pair : RegisterPair) (step : Int8) (marks : List Mark)
      (within : MarksWithin memory address 1 marks) :
      StaysWithin registers memory address 0
        { operation := { (indirectLoad.through registers memory pair).operation with
            hlStep := step }
          marks } :=
    ⟨refers_elsewhere byte_fits (addressed_register .a) addressed_none
      (addressed_some (.pair pair)) addressed_none, within⟩
  have back (pair : RegisterPair) (step : Int8) (marks : List Mark)
      (within : MarksWithin memory address 1 marks) :
      StaysWithin registers memory address 0
        { operation := { (indirectLoad.back registers memory pair).operation with
            hlStep := step }
          marks } :=
    ⟨refers_elsewhere byte_fits (addressed_some (.pair pair)) addressed_none
      (addressed_register .a) addressed_none, within⟩
  unfold indirectLoad
  split
  · exact through .bc 0 _ (marksWithin_pointer .bc)
  · exact back .bc 0 _ (marksWithin_pointer .bc)
  · exact through .de 0 _ (marksWithin_pointer .de)
  · exact back .de 0 _ (marksWithin_pointer .de)
  · exact through .hl 1 _ marksWithin_nil
  · exact back .hl 1 _ marksWithin_nil
  · exact through .hl (-1) _ marksWithin_nil
  · exact back .hl (-1) _ marksWithin_nil

/-- An operation with a single target stays within its instruction. -/
theorem within_target {action : Action} {p : Place} (target : action.operands =
      { destinationLow := some p })
    (addressed : ∀ q ∈ some p, Addressed registers memory address 1 q) (index : Nat)
    (cycles : UInt32) :
    StaysWithin registers memory address 0
      { plain action 1 cycles with marks := operandMarks index } := by
  refine ⟨?_, marksWithin_operand index⟩
  show RefersWithin _ _ _ 0 1 action.operands
  rw [target]
  exact refers_elsewhere byte_fits addressed_none addressed_none addressed addressed_none

/-- The operations of the accumulator stay within one byte. -/
theorem within_accumulatorActionOf (y : Nat) :
    StaysWithin registers memory address 0 (plain (accumulatorActionOf y) 1 4) := by
  have turned {action : Action} (target : action.operands =
      { destinationLow := some accumulator }) :
      StaysWithin registers memory address 0 (plain action 1 4) :=
    within_target registers memory address target (addressed_register .a) 0 4
  unfold accumulatorActionOf
  split
  iterate 6 exact turned rfl
  all_goals exact within_alone registers memory address rfl _

/-- The first quarter of the opcodes stays within the instruction. -/
theorem within_firstQuarter {y z : Nat} (selector : y < 8) (kind : z < 8) :
    StaysWithin registers memory address (immediates 0 y z)
      (firstQuarter registers memory address y z) := by
  interval_cases z
  · -- Two instructions of one byte, a store of the stack pointer, and relative jumps.
    interval_cases y
    · exact within_alone registers memory address rfl _
    · exact ⟨refers_elsewhere (Nat.zero_lt_of_lt three_fit) (addressed_register .spLow)
        (addressed_register .spHigh) (addressed_some (.absolute three_fit))
        (addressed_some (.absoluteNext three_fit)), (marksWithin_word three_fit _ _).1⟩
    · exact within_alone registers memory address rfl _
    all_goals exact ⟨refers_byte two_fit rfl rfl addressed_none addressed_none, marksWithin_nil⟩
  · -- Loads of words, and their sums.
    show StaysWithin _ _ _ (if y % 2 = 0 then 2 else 0)
      (if y % 2 = 0 then _ else _)
    split
    · exact ⟨refers_word three_fit rfl rfl (addressed_register _) (addressed_register _),
        (marksWithin_word three_fit _ _).2⟩
    · exact ⟨refers_elsewhere byte_fits (addressed_register _) (addressed_register _)
        (addressed_register _) (addressed_register _), marksWithin_nil⟩
  · exact within_indirectLoad registers memory address y
  · show StaysWithin _ _ _ 0 (plain (if y % 2 = 0 then _ else _) 1 8)
    split
    all_goals
      exact ⟨refers_elsewhere byte_fits addressed_none addressed_none (addressed_register _)
        (addressed_register _), marksWithin_nil⟩
  · exact within_target registers memory address rfl (addressed_byteOperand y) y _
  · exact within_target registers memory address rfl (addressed_byteOperand y) y _
  · exact ⟨refers_byte two_fit rfl rfl (addressed_byteOperand y) addressed_none,
      marksWithin_operand y⟩
  · exact within_accumulatorActionOf registers memory address y

/-- The second quarter of the opcodes stays within the instruction. -/
theorem within_secondQuarter (y z : Nat) :
    StaysWithin registers memory address (immediates 1 y z)
      (secondQuarter registers memory y z) := by
  show StaysWithin _ _ _ 0 _
  unfold secondQuarter
  split
  · exact within_alone registers memory address rfl _
  · exact ⟨refers_elsewhere byte_fits (addressed_byteOperand z) addressed_none
      (addressed_byteOperand y) addressed_none,
      marksWithin_append (marksWithin_operand y) (marksWithin_operand z)⟩

/-- Arithmetic refers to the accumulator and to its operand. -/
theorem operands_arithmeticOf (index : Nat) (operand : Place) :
    (arithmeticOf index operand).operands =
      { destinationLow := some accumulator, sourceLow := some operand } := by
  unfold arithmeticOf
  split <;> rfl

/-- The third quarter of the opcodes stays within the instruction. -/
theorem within_thirdQuarter (y z : Nat) :
    StaysWithin registers memory address (immediates 2 y z)
      (thirdQuarter registers memory y z) := by
  refine ⟨?_, marksWithin_operand z⟩
  show RefersWithin _ _ _ 0 _ (arithmeticOf y (byteOperand registers memory z)).operands
  rw [operands_arithmeticOf]
  exact refers_elsewhere byte_fits (addressed_byteOperand z) addressed_none
    (addressed_register .a) addressed_none

/-- The bit instructions stay within two bytes. -/
theorem within_bitInstruction (opcode : UInt8) :
    StaysWithin registers memory address 0 (bitInstruction registers memory opcode) := by
  refine ⟨?_, marksWithin_operand _⟩
  unfold bitInstruction
  dsimp only [plain]
  split
  all_goals
    exact refers_elsewhere (Nat.zero_lt_of_lt two_fit) addressed_none addressed_none
      (addressed_byteOperand _) addressed_none

/-- A byte that encodes no instruction stays within itself. -/
theorem within_illegal : StaysWithin registers memory address 0 { operation := .illegal } :=
  within_alone registers memory address rfl 0

/-- The fourth quarter of the opcodes stays within the instruction. -/
theorem within_fourthQuarter {y z : Nat} (selector : y < 8) (kind : z < 8) :
    StaysWithin registers memory address (immediates 3 y z)
      (fourthQuarter registers memory address y z) := by
  have illegal := within_illegal registers memory address
  interval_cases z
  · -- Conditional returns, the two loads at a distance from FF00, and the two offsets.
    interval_cases y
    iterate 4 exact within_alone registers memory address rfl 8
    · exact ⟨refers_elsewhere (Nat.zero_lt_of_lt two_fit) (addressed_register .a) addressed_none
        (addressed_some (.deviceAt two_fit)) addressed_none, marksWithin_nil⟩
    · exact ⟨refers_byte two_fit rfl rfl (addressed_register _) (addressed_register _),
        marksWithin_nil⟩
    · exact ⟨refers_elsewhere (Nat.zero_lt_of_lt two_fit) (addressed_some (.deviceAt two_fit))
        addressed_none (addressed_register .a) addressed_none, marksWithin_nil⟩
    · exact ⟨refers_byte two_fit rfl rfl (addressed_register _) (addressed_register _),
        marksWithin_nil⟩
  · -- Words taken from the stack, and returns, the jump to HL and the load of the stack pointer.
    have popped (pair : RegisterPair) :
        StaysWithin registers memory address 0 (plain (.pop pair.places) 1 12) :=
      ⟨refers_elsewhere byte_fits addressed_none addressed_none (addressed_register _)
        (addressed_register _), marksWithin_nil⟩
    interval_cases y
    · exact popped .bc
    · exact within_alone registers memory address rfl 16
    · exact popped .de
    · exact within_alone registers memory address rfl 16
    · exact popped .hl
    · exact ⟨refers_elsewhere byte_fits (addressed_register _) (addressed_register _)
        addressed_none addressed_none, marksWithin_nil⟩
    · exact popped .af
    · exact ⟨refers_elsewhere byte_fits (addressed_register _) (addressed_register _)
        (addressed_register _) (addressed_register _), marksWithin_nil⟩
  · -- Conditional jumps, and the loads at C and at an absolute address.
    interval_cases y
    iterate 4 exact within_immediateWord registers memory address rfl 12
    · exact ⟨refers_elsewhere byte_fits (addressed_register .a) addressed_none
        (addressed_some .device) addressed_none, marksWithin_nil⟩
    · exact ⟨refers_elsewhere (Nat.zero_lt_of_lt three_fit) (addressed_register .a)
        addressed_none (addressed_some (.absolute three_fit)) addressed_none,
        (marksWithin_word three_fit _ _).1⟩
    · exact ⟨refers_elsewhere byte_fits (addressed_some .device) addressed_none
        (addressed_register .a) addressed_none, marksWithin_nil⟩
    · exact ⟨refers_elsewhere (Nat.zero_lt_of_lt three_fit)
        (addressed_some (.absolute three_fit)) addressed_none (addressed_register .a)
        addressed_none, (marksWithin_word three_fit _ _).1⟩
  · -- A jump, the prefix, and the two switches of the interrupts.
    interval_cases y
    · exact within_immediateWord registers memory address rfl 16
    · exact within_bitInstruction registers memory address _
    iterate 4 exact illegal
    iterate 2 exact within_alone registers memory address rfl 4
  · interval_cases y
    iterate 4 exact within_immediateWord registers memory address rfl 12
    iterate 4 exact illegal
  · -- Words put on the stack, and a call.
    have pushed (pair : RegisterPair) :
        StaysWithin registers memory address 0 (plain (.push pair.places) 1 16) :=
      ⟨refers_elsewhere byte_fits (addressed_register _) (addressed_register _) addressed_none
        addressed_none, marksWithin_nil⟩
    interval_cases y
    · exact pushed .bc
    · exact within_immediateWord registers memory address rfl 24
    · exact pushed .de
    · exact illegal
    · exact pushed .hl
    · exact illegal
    · exact pushed .af
    · exact illegal
  · refine ⟨?_, marksWithin_nil⟩
    show RefersWithin _ _ _ 1 _ (arithmeticOf y (immediateWord memory address).low).operands
    rw [operands_arithmeticOf]
    exact refers_byte two_fit rfl rfl (addressed_register .a) addressed_none
  · exact within_alone registers memory address rfl 16

end Decoder

/-- Whatever is decoded stays within its instruction. -/
theorem within_decode (registers : Registers) (memory : β) (address : UInt16) :
    StaysWithin registers memory address
      (immediateCount (AddressSpace.read memory address).toNat)
      (decode registers memory address) := by
  have small := (AddressSpace.read memory address).toNat_lt
  rw [immediateCount_eq, decode_of_opcode rfl]
  generalize (AddressSpace.read memory address).toNat = opcode at small
  have quarter : opcode / 64 < 4 := by omega
  have selector : opcode / 8 % 8 < 8 := Nat.mod_lt _ (by decide)
  have kind : opcode % 8 < 8 := Nat.mod_lt _ (by decide)
  generalize opcode / 64 = x at quarter
  interval_cases x
  · exact Decoder.within_firstQuarter registers memory address selector kind
  · exact Decoder.within_secondQuarter registers memory address _ _
  · exact Decoder.within_thirdQuarter registers memory address _ _
  · exact Decoder.within_fourthQuarter registers memory address selector kind

/-- The bytes of an instruction are decoded to the same operation wherever they are seen. -/
theorem decode_of_sameBytes {registers : Registers} {memory memory' : β} {address : UInt16}
    (places : ∀ a, AddressSpace.resolve memory' a = AddressSpace.resolve memory a)
    (bytes : SameBytes memory memory' address
      (decode registers memory address).operation.length) :
    (decode registers memory' address).operation = (decode registers memory address).operation := by
  -- Every instruction has an opcode, so the opcode is one of the bytes that are the same.
  have some : 0 < (decode registers memory address).operation.length.toNat :=
    Nat.zero_lt_of_lt (within_decode registers memory address).refers.inside
  have opcode : AddressSpace.read memory' address = AddressSpace.read memory address := by
    have first := bytes 0 some
    have start : address + UInt16.ofNat 0 = address := UInt16.add_zero address
    rwa [start] at first
  -- Decoding commutes with a renaming of places; here the renaming leaves them as they are.
  have same := @decode_image β β _ _ _ _ id (fun _ => rfl) places registers address opcode bytes
  rw [same]
  unfold Operation.image
  rw [Action.image_id]

/-- The decoder does not look past the instruction that it reports. Where addresses stand for the
same places and the bytes of the instruction are the same, the same operation is decoded. The
operands that are bytes of the instruction are the first ones behind its opcode, and there are no
more of them than the instruction has; the addresses of other operands are told by registers and
by bytes of the instruction. All remarks on places are on its bytes. -/
theorem decode_within_instruction (registers : Registers) (memory : β) (address : UInt16) :
    let decoded := decode registers memory address
    (∀ memory' : β,
      (∀ a, AddressSpace.resolve memory' a = AddressSpace.resolve memory a) →
      SameBytes memory memory' address decoded.operation.length →
        (decode registers memory' address).operation = decoded.operation) ∧
      StaysWithin registers memory address
        (immediateCount (AddressSpace.read memory address).toNat) decoded :=
  ⟨fun _ => decode_of_sameBytes, within_decode registers memory address⟩

/-- A load of an immediate byte is the same load whatever follows it. -/
theorem decode_within_instruction_of_load :
    let memory := ({} : FlatMemory).store (FlatMemory.place 0) 0x06
    let other := memory.store (FlatMemory.place 2) 0xFF
    let decoded := decode {} memory 0
    SameBytes memory other 0 decoded.operation.length ∧
      (decode {} other 0).operation = decoded.operation ∧
      decoded.operation.action.operands.sourceLow = some (FlatMemory.place 1) := by
  intro memory other decoded
  have opcode : AddressSpace.read memory 0 = 0x06 := FlatMemory.read_store {} 0 0x06
  have decodes : decoded = Decoder.ofFields {} memory 0 0 0 6 :=
    decode_of_fields 0 (by decide) (by decide) (congrArg UInt8.toNat opcode)
  have long : decoded.operation.length = 2 := by
    rw [decodes]
    rfl
  have bytes : SameBytes memory other 0 decoded.operation.length := by
    rw [long]
    intro n inside
    have below : n < 2 := inside
    have apart : (0 : UInt16) + UInt16.ofNat n ≠ 2 := by
      interval_cases n <;> decide
    exact memory.read_store_of_ne apart 0xFF
  obtain ⟨same, within⟩ := decode_within_instruction {} memory 0
  refine ⟨bytes, same other (fun _ => rfl) bytes, within.refers.low ?_⟩
  rw [opcode]
  decide

end Handheld
