import Handheld.Proofs.Decoding
import Handheld.Proofs.Opcodes
import Handheld.Proofs.PlainMemory

/-!
# Pointers

Where an operand is the byte that a pair of registers points at, the decoder remarks that the
two bytes from which the pair stems formed an address. It does so for every such operand but
those that move HL as well: there the address is resolved and nothing is remarked.

`indirect?` lists the opcodes by the pair that points at an operand. Decoding never takes a mark
away, so the bytes are marked after it if they were before, and the four opcodes that move HL
are the only ones for which that is needed (`pointer_marked_iff`).
-/

set_option autoImplicit false

namespace Handheld

/-! ## Opcodes -/

/-- The opcodes with an operand at HL: the loads and stores that move HL, the steps by one and
the store of an immediate byte, the loads, the stores, and the arithmetic. -/
def atHl : List Nat :=
  [0x22, 0x2A, 0x32, 0x3A,
    0x34, 0x35, 0x36,
    0x46, 0x4E, 0x56, 0x5E, 0x66, 0x6E, 0x7E,
    0x70, 0x71, 0x72, 0x73, 0x74, 0x75, 0x77,
    0x86, 0x8E, 0x96, 0x9E, 0xA6, 0xAE, 0xB6, 0xBE]

/-- The pair of registers that points at an operand of an instruction, from its first two
bytes. -/
def indirect? (opcode second : Nat) : Option RegisterPair :=
  if opcode ∈ [0x02, 0x0A] then some .bc
  else if opcode ∈ [0x12, 0x1A] then some .de
  else if opcode ∈ atHl ∨ opcode = 0xCB ∧ second % 8 = 6 then some .hl
  else none

/-- Whether an instruction moves HL after it has used it as an address. -/
def movesHl (opcode : Nat) : Bool := opcode ∈ [0x22, 0x2A, 0x32, 0x3A]

section
variable {β : Type} [AddressSpace β] {registers : Registers} {memory : β} {address : UInt16}

/-- An operand of an instruction lies at a place. -/
def Operation.HasOperand (operation : Operation) (place : Place) : Prop :=
  operation.action.operands.destinationLow = some place ∨
    operation.action.operands.sourceLow = some place

/-- A decoded instruction has an operand at which a pair points, with the remarks that come with
it unless HL is moved. -/
def Decoded.Dereferences (decoded : Decoded) (pair : RegisterPair) (moves : Bool)
    (target : Place) : Prop :=
  decoded.operation.HasOperand target ∧
    decoded.marks = if moves then [] else Decoder.pointerMarks pair

/-- Without the prefix, the opcode tells all. -/
theorem dereferences_of_mem {pair : RegisterPair} {opcodes : List Nat}
    (listed : (opcodes, pair) ∈ [([0x02, 0x0A], .bc), ([0x12, 0x1A], .de), (atHl, .hl)]) :
    ∀ opcode ∈ opcodes, (Decoder.ofFields registers memory address (opcode / 64)
      (opcode / 8 % 8) (opcode % 8)).Dereferences pair (movesHl opcode)
        (AddressSpace.resolve memory (registers.pair pair)) := by
  simp only [List.mem_cons, Prod.mk.injEq, List.not_mem_nil, or_false] at listed
  obtain ⟨rfl, rfl⟩ | ⟨rfl, rfl⟩ | ⟨rfl, rfl⟩ := listed
  -- The place is the destination of a store or a step by one, and the source of all others.
  all_goals
    intro opcode member
    repeat
      obtain rfl | member := List.mem_cons.mp member
      · first
        | exact ⟨.inl rfl, rfl⟩
        | exact ⟨.inr rfl, rfl⟩
    cases member

/-- With the prefix, the operand is selected by the second byte. -/
theorem dereferences_prefixed
    (second : (AddressSpace.read memory (address + 1)).toNat % 8 = 6) :
    (Decoder.ofFields registers memory address 3 1 3).Dereferences .hl false
      (AddressSpace.resolve memory (registers.pair .hl)) := by
  show (Decoder.bitInstruction registers memory _).Dereferences _ _ _
  unfold Decoder.bitInstruction
  dsimp only
  rw [second]
  refine ⟨.inl ?_, rfl⟩
  dsimp only [Decoder.plain]
  split <;> rfl

/-- Opcodes that reach memory through a register pair decode to a dereference of it. -/
theorem decode_dereferences {pair : RegisterPair}
    (indirect : indirect? (AddressSpace.read memory address).toNat
      (AddressSpace.read memory (address + 1)).toNat = some pair) :
    (decode registers memory address).Dereferences pair
      (movesHl (AddressSpace.read memory address).toNat)
      (AddressSpace.resolve memory (registers.pair pair)) := by
  unfold indirect? at indirect
  rw [decode_of_opcode rfl]
  split at indirect
  next member =>
    cases indirect
    exact dereferences_of_mem (by decide) _ member
  split at indirect
  next member =>
    cases indirect
    exact dereferences_of_mem (by decide) _ member
  split at indirect
  next either =>
    cases indirect
    obtain member | ⟨leading, second⟩ := either
    · exact dereferences_of_mem (by decide) _ member
    · rw [leading]
      exact dereferences_prefixed second
  next => cases indirect

end

namespace System

variable {β : Type} [AddressSpace β] {s t : System β}

/-! ## Marks -/

/-- The byte from which a register stems is on record with a use, if it is known and there. -/
def OriginUsed (s : System β) (r : Register) (usage : Usage) : Prop :=
  ∀ origin, s.origin? (.register r) = some origin → present s.bus origin = true →
    usage ⊆ (s.ledger.note origin).record.usage

/-- The two bytes from which a pair of registers stems are on record as halves of an address. -/
def PointersMarked (pair : RegisterPair) (s : System β) : Prop :=
  s.OriginUsed pair.high .pointerHigh ∧ s.OriginUsed pair.low .pointerLow

/-- What is added to the usage records is added to what is there. -/
theorem Annotated.usage_subset {kinds : Usage} (annotated : Annotated kinds s t) (p : Place) :
    (s.ledger.note p).record.usage ⊆ (t.ledger.note p).record.usage := by
  obtain same | ⟨usage, -, marked⟩ := annotated.record p
  · rw [same]
    exact Usage.subset_refl _
  · rw [marked, UsageRecord.usage_mark]
    exact Usage.subset_union_left _ _

/-- A use of an origin stays on record. -/
theorem OriginUsed.annotated {kinds usage : Usage} {r : Register} (used : s.OriginUsed r usage)
    (annotated : Annotated kinds s t) : t.OriginUsed r usage := by
  intro origin known here
  rw [origin?_register, annotated.origin, ← origin?_register] at known
  rw [annotated.bus] at here
  exact Usage.subset_trans (used origin known here) (annotated.usage_subset origin)

/-- A byte is on record with the use that it is marked with. -/
theorem subset_mark [AddressSpace.Lawful β] (s : System β) {p : Place} (usage : Usage)
    (here : present s.bus p = true) :
    usage ⊆ ((s.mark p usage).ledger.note p).record.usage := by
  have answers : p ≠ .openBus := by
    rintro rfl
    have absent : present s.bus .openBus = false :=
      congrArg Option.isSome (AddressSpace.Lawful.byte?_openBus s.bus)
    rw [absent] at here
    contradiction
  rw [mark_eq, if_pos here]
  show usage ⊆ ((s.ledger.modify p _).note p).record.usage
  rw [Ledger.note_modify _ _ _ _ answers, if_pos rfl, UsageRecord.usage_mark]
  exact Usage.subset_union_right _ _

/-- Marking the use of an origin puts it on record. -/
theorem originUsed_markOrigin [AddressSpace.Lawful β] (s : System β) (r : Register)
    (usage : Usage) : (s.markOrigin (.register r) usage).OriginUsed r usage := by
  intro origin known here
  rw [origin?_markOrigin] at known
  rw [markOrigin_bus] at here
  unfold markOrigin
  rw [known]
  exact s.subset_mark usage here

/-- The remarks on a pair mark both bytes from which it stems. -/
theorem pointersMarked_applyMarks [AddressSpace.Lawful β] (s : System β) (pair : RegisterPair) :
    PointersMarked pair ((Decoder.pointerMarks pair).foldl applyMark s) := by
  -- The remark on the lower byte comes second, and takes nothing from the first.
  let upper := s.markOrigin (.register pair.high) .pointerHigh
  have high : upper.OriginUsed pair.high .pointerHigh := s.originUsed_markOrigin _ _
  let remark : Mark := .originOf (.register pair.low) .pointerLow
  have marked : Annotated .pointerLow upper (upper.applyMark remark) :=
    .applyMark upper (Usage.subset_refl _)
  exact ⟨high.annotated marked, upper.originUsed_markOrigin _ _⟩

/-- An instruction whose operand is the byte at a pair of registers marks the bytes from which
the pair stems, unless it moves HL. One that moves HL marks nothing, so the bytes are marked after
it exactly if they were before. -/
theorem pointers_marked_iff [AddressSpace.Lawful β] (s : System β) (address : UInt16)
    (pair : RegisterPair) :
    let opcode := (AddressSpace.read s.bus address).toNat
    let t := (s.decode address).1
    indirect? opcode (AddressSpace.read s.bus (address + 1)).toNat = some pair →
      (s.decode address).2.HasOperand (s.resolve (s.cpu.registers.pair pair)) ∧
        (PointersMarked pair t ↔ (movesHl opcode = true → PointersMarked pair s)) := by
  intro opcode t indirect
  have decodes : (Handheld.decode s.cpu.registers s.bus address).Dereferences pair
      (movesHl opcode) (s.resolve (s.cpu.registers.pair pair)) := decode_dereferences indirect
  refine ⟨decodes.1, ?_⟩
  have marked : t = (if movesHl opcode then [] else Decoder.pointerMarks pair).foldl applyMark s :=
    congrArg (List.foldl applyMark s) decodes.2
  cases moves : movesHl opcode with
  | true =>
    have same : t = s := by
      rw [marked, if_pos moves]
      rfl
    rw [same]
    exact ⟨fun marks _ => marks, fun marks => marks rfl⟩
  | false =>
    have same : t = (Decoder.pointerMarks pair).foldl applyMark s := by
      rw [marked, moves]
      rfl
    rw [same]
    exact ⟨nofun, fun _ => s.pointersMarked_applyMarks pair⟩

/-- An instruction at address 0 with its operand at HL, while H stems from the byte at address
1. -/
def pointing (opcode : UInt8) : System FlatMemory where
  bus := ({} : FlatMemory).store (FlatMemory.place 0) opcode
  ledger := ({} : Ledger).setOrigin (.register .h) (FlatMemory.place 1)

/-- The example state reads its opcode. -/
theorem pointing_read (opcode : UInt8) : AddressSpace.read (pointing opcode).bus 0 = opcode :=
  FlatMemory.read_store {} 0 opcode

/-- The opcodes that reach memory through HL alone are indirect by HL. -/
theorem pointing_indirect {opcode : UInt8} (listed : opcode.toNat ∈ atHl)
    (apart : opcode.toNat ∉ [0x02, 0x0A] ∧ opcode.toNat ∉ [0x12, 0x1A]) :
    indirect? (AddressSpace.read (pointing opcode).bus 0).toNat
      (AddressSpace.read (pointing opcode).bus (0 + 1)).toNat = some .hl := by
  rw [pointing_read]
  unfold indirect?
  rw [if_neg apart.1, if_neg apart.2, if_pos (.inl listed)]

/-- In the example state the upper half of HL has an origin. -/
theorem pointing_origin (opcode : UInt8) :
    (pointing opcode).origin? (.register .h) = some (FlatMemory.place 1) := by
  rw [origin?_register]
  unfold pointing Ledger.setOrigin
  rw [Ledger.note_modify _ _ _ _ (by rintro ⟨⟩), if_pos rfl]

/-- A store through HL marks the byte from which H stems. -/
theorem pointers_marked_of_store :
    indirect? (AddressSpace.read (pointing 0x77).bus 0).toNat
        (AddressSpace.read (pointing 0x77).bus (0 + 1)).toNat = some .hl ∧
      PointersMarked .hl ((pointing 0x77).decode 0).1 := by
  have indirect := @pointing_indirect 0x77 (by decide) (by decide)
  obtain ⟨-, marked⟩ := (pointing 0x77).pointers_marked_iff 0 .hl indirect
  refine ⟨indirect, marked.mpr ?_⟩
  rw [pointing_read]
  exact nofun

/-- A store that moves HL marks nothing, although it stores through HL as well. -/
theorem pointers_unmarked_of_moving_store :
    let s := pointing 0x22
    let t := (s.decode 0).1
    indirect? (AddressSpace.read s.bus 0).toNat (AddressSpace.read s.bus (0 + 1)).toNat =
        some .hl ∧
      s.origin? (.register .h) = some (FlatMemory.place 1) ∧
      present t.bus (FlatMemory.place 1) = true ∧
      ¬ .pointerHigh ⊆ (t.ledger.note (FlatMemory.place 1)).record.usage := by
  intro s t
  have indirect := @pointing_indirect 0x22 (by decide) (by decide)
  have decodes : (Handheld.decode s.cpu.registers s.bus 0).Dereferences .hl
      (movesHl (AddressSpace.read s.bus 0).toNat) (s.resolve (s.cpu.registers.pair .hl)) :=
    decode_dereferences indirect
  have nothing : (Handheld.decode s.cpu.registers s.bus 0).marks = [] := by
    rw [decodes.2, pointing_read]
    rfl
  have same : t = s := congrArg (List.foldl applyMark s) nothing
  refine ⟨indirect, pointing_origin 0x22, FlatMemory.present_place _ 1, ?_⟩
  rw [same]
  decide

end System

end Handheld
