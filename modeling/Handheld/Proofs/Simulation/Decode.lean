import Handheld.Cpu.Decode

/-!
# One address space in the image of another

Two address spaces may keep the same bytes under different names. What the first keeps at a
place the second keeps at the image of the place, and an address that stands for a place in the
first stands for its image in the second.

The decoder asks for the places of addresses and for the bytes of the instruction. So where
those bytes are the same, the second address space decodes the image of the instruction: the
same action on other places, with the same length and cost.
-/

set_option autoImplicit false

namespace Handheld

/-- The images of the two places of a word. -/
def PlacePair.image (image : Place → Place) (pair : PlacePair) : PlacePair :=
  ⟨image pair.high, image pair.low⟩

/-- The image of a pair of places has the image of the low place. -/
theorem PlacePair.image_low (image : Place → Place) (pair : PlacePair) :
    (pair.image image).low = image pair.low := rfl

/-- The same action on the images of its places. -/
def Action.image (image : Place → Place) : Action → Action
  | .load8 destination source => .load8 (image destination) (image source)
  | .load16 destination source => .load16 (destination.image image) (source.image image)
  | .loadStackOffset destination offset =>
    .loadStackOffset (destination.image image) (image offset)
  | .push source => .push (source.image image)
  | .pop destination => .pop (destination.image image)
  | .inc8 target => .inc8 (image target)
  | .dec8 target => .dec8 (image target)
  | .inc16 target => .inc16 (target.image image)
  | .dec16 target => .dec16 (target.image image)
  | .sum8 kind target operand => .sum8 kind (image target) (image operand)
  | .logic8 kind target operand => .logic8 kind (image target) (image operand)
  | .compare8 target operand => .compare8 (image target) (image operand)
  | .add16 target operand => .add16 (target.image image) (operand.image image)
  | .addStackOffset target offset => .addStackOffset (target.image image) (image offset)
  | .rotateAccumulator kind target => .rotateAccumulator kind (image target)
  | .decimalAdjust target => .decimalAdjust (image target)
  | .complement target => .complement (image target)
  | .jumpRelative condition offset => .jumpRelative condition (image offset)
  | .jump condition target => .jump condition (target.image image)
  | .call condition target => .call condition (target.image image)
  | .shift kind target => .shift kind (image target)
  | .testBit index target => .testBit index (image target)
  | .clearBit index target => .clearBit index (image target)
  | .setBit index target => .setBit index (image target)
  | action => action

/-- The operation with the image of its action, of the same length and cost. -/
def Operation.image (image : Place → Place) (operation : Operation) : Operation :=
  { operation with action := operation.action.image image }

/-- The image of an action is of the same kind, and has the same number in it. -/
theorem Action.image_kind (image : Place → Place) (action : Action) :
    (action.image image).name = action.name ∧ (action.image image).number = action.number := by
  cases action with
  | sum8 kind => cases kind <;> exact ⟨rfl, rfl⟩
  | logic8 kind => cases kind <;> exact ⟨rfl, rfl⟩
  | rotateAccumulator kind => cases kind <;> exact ⟨rfl, rfl⟩
  | shift kind =>
    cases kind with
    | rotate kind => cases kind <;> exact ⟨rfl, rfl⟩
    | _ => exact ⟨rfl, rfl⟩
  | _ => exact ⟨rfl, rfl⟩

/-- The same bytes are read from an address on, as many as an instruction there has. -/
def SameBytes {β β' : Type} [AddressSpace β] [AddressSpace β'] (bus : β) (bus' : β')
    (address : UInt16) (length : UInt8) : Prop :=
  ∀ n < length.toNat, AddressSpace.read bus' (address + UInt16.ofNat n) =
    AddressSpace.read bus (address + UInt16.ofNat n)

namespace Decoder

variable {β β' : Type} [AddressSpace β] [AddressSpace β'] {bus : β} {bus' : β'}
  {image : Place → Place} (register : ∀ r, image (.register r) = .register r)
  (resolve : ∀ address,
    AddressSpace.resolve bus' address = image (AddressSpace.resolve bus address))
  (registers : Registers)

include register in
/-- The image of a register pair is the pair itself. -/
theorem image_places (pair : RegisterPair) : pair.places.image image = pair.places := by
  unfold PlacePair.image RegisterPair.places
  rw [register, register]

include resolve in
/-- The operand of an instruction lies at the image of its places. -/
theorem image_immediateWord (address : UInt16) :
    immediateWord bus' address = (immediateWord bus address).image image := by
  unfold immediateWord PlacePair.image
  rw [resolve, resolve]

include register resolve in
/-- A byte operand has its image in the second address space. -/
theorem image_byteOperand (index : Nat) :
    byteOperand registers bus' index = image (byteOperand registers bus index) := by
  unfold byteOperand
  split
  all_goals first | exact resolve _ | exact (register _).symm

include register in
/-- An arithmetic operation of an operand becomes that of its image. -/
theorem image_arithmeticOf (index : Nat) (operand : Place) :
    (arithmeticOf index operand).image image = arithmeticOf index (image operand) := by
  unfold arithmeticOf accumulator
  split <;> simp only [Action.image, register]

include register in
/-- An operation of the accumulator is its own image. -/
theorem image_accumulatorActionOf (index : Nat) :
    (accumulatorActionOf index).image image = accumulatorActionOf index := by
  unfold accumulatorActionOf accumulator
  split <;> simp only [Action.image, register]

include register resolve in
/-- An indirect load decodes to its image. -/
theorem image_indirectLoad (index : Nat) :
    (indirectLoad registers bus' index).operation =
      (indirectLoad registers bus index).operation.image image := by
  unfold indirectLoad
  split <;>
    simp only [indirectLoad.through, indirectLoad.back, indirectLoad.stepping, plain,
      Operation.image, Action.image, accumulator, register, resolve]

include register resolve in
/-- A bit instruction decodes to its image. -/
theorem image_bitInstruction (opcode : UInt8) :
    (bitInstruction registers bus' opcode).operation =
      (bitInstruction registers bus opcode).operation.image image := by
  unfold bitInstruction
  simp only [plain, Operation.image, image_byteOperand register resolve]
  split <;> rfl

include register resolve in
/-- The second quarter of the opcodes decodes to images. -/
theorem image_secondQuarter (y z : Nat) :
    (secondQuarter registers bus' y z).operation =
      (secondQuarter registers bus y z).operation.image image := by
  unfold secondQuarter
  split
  · rfl
  · simp only [plain, Operation.image, Action.image, image_byteOperand register resolve]

include register resolve in
/-- The third quarter of the opcodes decodes to images. -/
theorem image_thirdQuarter (y z : Nat) :
    (thirdQuarter registers bus' y z).operation =
      (thirdQuarter registers bus y z).operation.image image := by
  unfold thirdQuarter
  simp only [plain, Operation.image, image_byteOperand register resolve,
    image_arithmeticOf register]

/-! ## Instructions of more than one byte -/

/-- The address in an instruction of three bytes. -/
theorem addressAt_immediateWord {address : UInt16} (bytes : SameBytes bus bus' address 3) :
    addressAt bus' (immediateWord bus' address) = addressAt bus (immediateWord bus address) := by
  have high := bytes 2 (by decide)
  have low := bytes 1 (by decide)
  unfold addressAt
  exact congr (congrArg word high) low

include register resolve in
/-- The first quarter of the opcodes decodes to images, where the bytes of the instruction agree.
-/
theorem image_firstQuarter (address : UInt16) (y z : Nat)
    (bytes : SameBytes bus bus' address (firstQuarter registers bus address y z).operation.length) :
    (firstQuarter registers bus' address y z).operation =
      (firstQuarter registers bus address y z).operation.image image := by
  have immediate := image_immediateWord resolve address
  unfold firstQuarter at bytes ⊢
  split
  · split
    · rfl
    · have target := addressAt_immediateWord bytes
      simp only [Operation.image, Action.image, image_places register, target, resolve]
      rfl
    · rfl
    · simp only [plain, Operation.image, Action.image, PlacePair.image_low, immediate]
    · simp only [plain, Operation.image, Action.image, PlacePair.image_low, immediate]
  · dsimp only
    split
    · simp only [Operation.image, Action.image, image_places register, immediate]
    · simp only [plain, Operation.image, Action.image, image_places register]
  · exact image_indirectLoad register resolve registers y
  · dsimp only [plain, Operation.image]
    split <;> simp only [Action.image, image_places register]
  · simp only [plain, Operation.image, Action.image, image_byteOperand register resolve]
  · simp only [plain, Operation.image, Action.image, image_byteOperand register resolve]
  · simp only [plain, Operation.image, Action.image, PlacePair.image_low,
      image_byteOperand register resolve, immediate]
  · simp only [plain, Operation.image, image_accumulatorActionOf register]

include register resolve in
/-- The fourth quarter of the opcodes decodes to images, where the bytes of the instruction agree.
-/
theorem image_fourthQuarter (address : UInt16) (y z : Nat)
    (bytes :
      SameBytes bus bus' address (fourthQuarter registers bus address y z).operation.length) :
    (fourthQuarter registers bus' address y z).operation =
      (fourthQuarter registers bus address y z).operation.image image := by
  have immediate := image_immediateWord resolve address
  have second : SameBytes bus bus' address 2 →
      AddressSpace.load bus' (immediateWord bus' address).low =
        AddressSpace.load bus (immediateWord bus address).low :=
    fun bytes => bytes 1 (by decide)
  unfold fourthQuarter at bytes ⊢
  split
  · split
    · have offset := second bytes
      simp only [plain, Operation.image, Action.image, devicePlace, accumulator, register, offset,
        resolve]
    · simp only [plain, Operation.image, Action.image, PlacePair.image_low, image_places register,
        immediate]
    · have offset := second bytes
      simp only [plain, Operation.image, Action.image, devicePlace, accumulator, register, offset,
        resolve]
    · simp only [plain, Operation.image, Action.image, PlacePair.image_low, image_places register,
        immediate]
    · rfl
  · split <;> simp only [plain, Operation.image, Action.image, image_places register]
  · split
    · simp only [plain, Operation.image, Action.image, devicePlace, accumulator, register, resolve]
    · have target := addressAt_immediateWord bytes
      simp only [plain, Operation.image, Action.image, accumulator, register, target, resolve]
    · simp only [plain, Operation.image, Action.image, devicePlace, accumulator, register, resolve]
    · have target := addressAt_immediateWord bytes
      simp only [plain, Operation.image, Action.image, accumulator, register, target, resolve]
    · simp only [plain, Operation.image, Action.image, immediate]
  · split
    · simp only [plain, Operation.image, Action.image, immediate]
    · have both : SameBytes bus bus' address 2 := bytes
      have opcode : AddressSpace.read bus' (address + 1) = AddressSpace.read bus (address + 1) :=
        both 1 (by decide)
      rw [opcode]
      exact image_bitInstruction register resolve registers _
    all_goals rfl
  · split
    · simp only [plain, Operation.image, Action.image, immediate]
    · rfl
  · split
    · simp only [plain, Operation.image, Action.image, immediate]
    · rfl
    · rfl
    · rfl
    · simp only [plain, Operation.image, Action.image, image_places register]
  · simp only [plain, Operation.image, PlacePair.image_low, immediate, image_arithmeticOf register]
  · rfl

end Decoder

/-- Where the bytes of the instruction are the same, its image is decoded. -/
theorem decode_image {β β' : Type} [AddressSpace β] [AddressSpace β'] {bus : β} {bus' : β'}
    {image : Place → Place} (register : ∀ r, image (.register r) = .register r)
    (resolve : ∀ address,
      AddressSpace.resolve bus' address = image (AddressSpace.resolve bus address))
    (registers : Registers) {address : UInt16}
    (opcode : AddressSpace.read bus' address = AddressSpace.read bus address)
    (bytes : SameBytes bus bus' address (decode registers bus address).operation.length) :
    (decode registers bus' address).operation =
      (decode registers bus address).operation.image image := by
  unfold decode at bytes ⊢
  dsimp only at bytes ⊢
  rw [opcode]
  split at bytes
  · exact Decoder.image_firstQuarter register resolve registers address _ _ bytes
  · exact Decoder.image_secondQuarter register resolve registers _ _
  · exact Decoder.image_thirdQuarter register resolve registers _ _
  · exact Decoder.image_fourthQuarter register resolve registers address _ _ bytes

end Handheld
