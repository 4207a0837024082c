import Handheld.Proofs.FlatMemory
import Handheld.Proofs.Work

/-!
# Origins account for values

After an instruction a place in flat memory holds what it held before, or a byte without an
origin, or what a move has taken to it. The last needs that the moves of an instruction do not
get in each other's way: a move that reads what an earlier deed has left, or a later deed that
reaches the same place, would put down to a place what it never held.

* Deeds are in good order (`InOrder`) if each reaches a byte of its own and moves none that an
  earlier one has reached. What such deeds do can be told place by place (`Accounted`).
* The deeds of every operation that is decoded are in good order (`orderly_decode`). This depends
  on the operands that an opcode can select, and there is a lemma for each quarter of the opcodes.
* In memory the deeds of an action reach its destination and, for what pushes, the two bytes
  below the stack pointer (`reached_of_deeds`).
-/

set_option autoImplicit false

namespace Handheld

/-- Whether an action puts a word on the stack under the given flags. -/
def Action.pushes (flags : Flags) : Action → Bool
  | .push _ | .restart _ => true
  | .call condition _ => condition.holds flags
  | _ => false

/-- The place from which a deed moves a byte. -/
def Deed.source? : Deed → Option Place
  | .move _ source => some source
  | .write _ | .flags => none

/-- What a deed has left at its place is neither changed nor moved on by a later one. -/
def Deed.Spares (later earlier : Deed) : Prop :=
  later.place ≠ earlier.place ∧ later.source? ≠ some earlier.place

instance (later earlier : Deed) : Decidable (later.Spares earlier) :=
  inferInstanceAs (Decidable (_ ∧ _))

namespace System

open FlatMemory (place place_inj place_ne_register present_place)

/-! ## Deeds in good order -/

/-- Every deed reaches a byte, and each byte once, and no byte is moved after it was reached. -/
structure InOrder (deeds : List Deed) : Prop where
  present : ∀ deed ∈ deeds, present ({} : FlatMemory) deed.place = true
  apart : deeds.Pairwise fun earlier later => later.Spares earlier

/-- What deeds have done to each place. -/
structure Accounted (s t : System FlatMemory) (deeds : List Deed) : Prop where
  unreached : ∀ q, (∀ deed ∈ deeds, deed.place ≠ q) → t.held q = s.held q
  written : ∀ q, .write q ∈ deeds → (t.held q).2 = none
  moved : ∀ q source, .move q source ∈ deeds →
    t.held q = (kept q (s.taken source).1, (s.taken source).2)

namespace InOrder

variable {first second : List Deed}

/-- The first deeds of an orderly list are in good order. -/
theorem append_left (h : InOrder (first ++ second)) : InOrder first :=
  ⟨fun deed mem => h.present deed (List.mem_append_left _ mem), (List.pairwise_append.mp h.apart).1⟩

/-- The last deeds of an orderly list are in good order. -/
theorem append_right (h : InOrder (first ++ second)) : InOrder second :=
  ⟨fun deed mem => h.present deed (List.mem_append_right _ mem),
    (List.pairwise_append.mp h.apart).2.1⟩

/-- In an orderly list the later deeds spare the earlier ones. -/
theorem spares (h : InOrder (first ++ second)) {earlier later : Deed} (before : earlier ∈ first)
    (after : later ∈ second) : later.Spares earlier :=
  (List.pairwise_append.mp h.apart).2.2 earlier before later after

end InOrder

/-- Setting the flags changes nothing that is held elsewhere. -/
theorem held_setFlags (s : System FlatMemory) (flags : Flags) {q : Place}
    (other : q ≠ .register .f) : (s.setFlags flags).held q = s.held q := by
  have byte : (s.setFlags flags).load q = s.load q := by
    cases q with
    | register r => cases r <;> first | rfl | exact absurd rfl other
    | _ => rfl
  unfold held
  rw [byte]
  rfl

/-- Flat memory in which nothing is stored stays as it is. -/
theorem attended_flat {memory next : FlatMemory} (attended : Attended memory next) :
    next = memory := by
  cases attended <;> rfl

/-- Two rows of deeds, one after the other. -/
theorem Accounted.trans {s t u : System FlatMemory} {first second : List Deed}
    (before : Accounted s t first) (after : Accounted t u second)
    (order : InOrder (first ++ second)) : Accounted s u (first ++ second) where
  unreached q clear := by
    rw [after.unreached q fun deed mem => clear deed (List.mem_append_right _ mem)]
    exact before.unreached q fun deed mem => clear deed (List.mem_append_left _ mem)
  written q mem := by
    obtain early | late := List.mem_append.mp mem
    · rw [after.unreached q fun deed later => (order.spares early later).1]
      exact before.written q early
    · exact after.written q late
  moved q source mem := by
    obtain early | late := List.mem_append.mp mem
    · rw [after.unreached q fun deed later => (order.spares early later).1]
      exact before.moved q source early
    · have same : t.held source = s.held source := by
        apply before.unreached source
        intro deed earlier reached
        exact (order.spares earlier late).2 (congrArg some reached.symm)
      rw [after.moved q source late, taken, same]
      rfl

/-- What works by deeds in good order has done what they say. -/
theorem accounted_of_works {s t : System FlatMemory} {n : Nat} {deeds : List Deed}
    (works : Works s n deeds t) (order : InOrder deeds) : Accounted s t deeds := by
  -- A deed that is alone in good order reaches a byte that is there, so it is not lost.
  have here : ∀ {s : System FlatMemory} {deed : Deed}, InOrder [deed] →
      present s.bus deed.place = true := by
    intro s deed alone
    rw [FlatMemory.present_eq _ {}]
    exact alone.present deed List.mem_cons_self
  induction works with
  | aside _ bus registers ledger =>
    refine ⟨fun q _ => held_eq _ registers (attended_flat bus) ?_ q, ?_, ?_⟩
    · intro q
      rw [ledger]
    · rintro q ⟨⟩
    · rintro q source ⟨⟩
  | mark s marked usage =>
    refine ⟨fun q _ => s.held_mark marked usage q, ?_, ?_⟩
    · rintro q ⟨⟩
    · rintro q source ⟨⟩
  | flags s flags =>
    refine ⟨fun q clear => s.held_setFlags flags (clear .flags List.mem_cons_self).symm, ?_, ?_⟩
    · intro q mem
      cases List.mem_singleton.mp mem
    · intro q source mem
      cases List.mem_singleton.mp mem
  | write s written value =>
    have answers : present s.bus written = true := here order
    have held := s.held_write answers value
    refine ⟨fun q clear => ?_, ?_, ?_⟩
    · have elsewhere : q ≠ written := (clear _ List.mem_cons_self).symm
      rw [held, if_neg elsewhere]
    · intro q mem
      cases List.mem_singleton.mp mem
      rw [held, if_pos rfl]
    · intro q source mem
      cases List.mem_singleton.mp mem
  | move s destination source =>
    have answers : present s.bus destination = true := here order
    have held := s.held_move answers source
    refine ⟨fun q clear => ?_, ?_, ?_⟩
    · have elsewhere : q ≠ destination := (clear _ List.mem_cons_self).symm
      rw [held, if_neg elsewhere]
    · intro q mem
      cases List.mem_singleton.mp mem
    · intro q other mem
      cases List.mem_singleton.mp mem
      rw [held, if_pos rfl]
      rfl
  | trans _ _ first second =>
    exact (first order.append_left).trans (second order.append_right) order

/-! ## The operands of decoded operations -/

/-- The bytes that an instruction can name as an operand: the registers other than the flags,
and the memory. -/
def Operand (p : Place) : Prop := (∃ r, r ≠ .f ∧ p = .register r) ∨ ∃ address, p = place address

/-- The deeds of an action are in good order in every state. -/
def Orderly (action : Action) : Prop := ∀ s : System FlatMemory, InOrder (s.deeds action)

/-- An operand is a byte that there is. -/
theorem Operand.present {p : Place} (operand : Operand p) :
    present ({} : FlatMemory) p = true := by
  obtain ⟨r, -, rfl⟩ | ⟨address, rfl⟩ := operand
  · rfl
  · exact present_place _ _

/-- The flags are no operand. -/
theorem Operand.ne_flags {p : Place} (operand : Operand p) : p ≠ .register .f := by
  obtain ⟨r, other, rfl⟩ | ⟨address, rfl⟩ := operand
  · simpa using other
  · exact place_ne_register _ _

/-- The accumulator is an operand. -/
theorem operand_accumulator : Operand Decoder.accumulator := .inl ⟨.a, by decide, rfl⟩

namespace InOrder

/-- No deeds are in good order. -/
theorem nil : InOrder [] := ⟨by simp, .nil⟩

/-- One deed is in good order if it reaches a byte. -/
theorem one {deed : Deed} (here : System.present ({} : FlatMemory) deed.place = true) :
    InOrder [deed] :=
  ⟨by simpa using here, List.pairwise_singleton _ _⟩

/-- A deed may stand before deeds in good order that spare it. -/
theorem cons {deed : Deed} {deeds : List Deed}
    (here : System.present ({} : FlatMemory) deed.place = true)
    (spared : ∀ later ∈ deeds, later.Spares deed) (rest : InOrder deeds) :
    InOrder (deed :: deeds) :=
  ⟨List.forall_mem_cons.mpr ⟨here, rest.present⟩, List.pairwise_cons.mpr ⟨spared, rest.apart⟩⟩

/-- Two deeds are in good order if both reach bytes and the second spares the first. -/
theorem two {first second : Deed} (here : System.present ({} : FlatMemory) first.place = true)
    (there : System.present ({} : FlatMemory) second.place = true)
    (spared : second.Spares first) : InOrder [first, second] :=
  cons here (by simpa using spared) (one there)

/-- What is done only under a condition. -/
theorem ite {condition : Bool} {deeds : List Deed} (h : InOrder deeds) :
    InOrder (if condition then deeds else []) := by
  split
  · exact h
  · exact nil

end InOrder

/-- A new word in a pair of registers spares what is elsewhere. -/
theorem spares_pairDeeds (pair : RegisterPair) {earlier : Deed}
    (high : earlier.place ≠ .register pair.high) (low : earlier.place ≠ .register pair.low) :
    ∀ later ∈ pairDeeds pair, later.Spares earlier := by
  intro later mem
  simp only [pairDeeds, List.mem_cons, List.not_mem_nil, or_false] at mem
  obtain rfl | rfl := mem
  · exact ⟨high.symm, nofun⟩
  · exact ⟨low.symm, nofun⟩

/-- A register pair is written in good order. -/
theorem inOrder_pairDeeds (pair : RegisterPair) : InOrder (pairDeeds pair) := by
  refine .two rfl rfl ?_
  cases pair <;> decide

/-- Two bytes go to the stack, and the stack pointer moves. The second byte does not come from
the stack. -/
theorem inOrder_onStack (sp : UInt16) {high low : Deed} (upper : high.place = place (sp - 1))
    (lower : low.place = place (sp - 2)) (elsewhere : low.source? ≠ some (place (sp - 1))) :
    InOrder (high :: low :: pairDeeds .sp) := by
  have onStack : ∀ {deed : Deed} {a : UInt16}, deed.place = place a →
      present ({} : FlatMemory) deed.place = true ∧
        ∀ later ∈ pairDeeds .sp, later.Spares deed := by
    intro deed a reached
    have register : ∀ r, deed.place ≠ .register r := by
      intro r
      rw [reached]
      exact place_ne_register a r
    refine ⟨?_, spares_pairDeeds .sp (register _) (register _)⟩
    rw [reached]
    exact present_place _ a
  have second : low.Spares high := by
    unfold Deed.Spares
    rw [upper, lower]
    exact ⟨fun same => below_ne sp (place_inj.mp same).symm, elsewhere⟩
  obtain ⟨highPresent, highSpared⟩ := onStack upper
  obtain ⟨lowPresent, lowSpared⟩ := onStack lower
  have rest := InOrder.cons lowPresent lowSpared (inOrder_pairDeeds .sp)
  exact .cons highPresent (List.forall_mem_cons.mpr ⟨second, highSpared⟩) rest

/-- The program counter is pushed in good order. -/
theorem inOrder_pushPcDeeds (s : System FlatMemory) : InOrder s.pushPcDeeds :=
  inOrder_onStack s.sp rfl rfl nofun

/-- A word moves to a pair whose two bytes are apart from each other, and the upper one from the
byte that is read after it was reached. -/
theorem orderly_load16 {destination source : PlacePair}
    (high : present ({} : FlatMemory) destination.high = true)
    (low : present ({} : FlatMemory) destination.low = true)
    (apart : destination.low ≠ destination.high) (unread : source.low ≠ destination.high) :
    Orderly (.load16 destination source) :=
  fun _ => .two high low ⟨apart, fun same => unread (Option.some.inj same)⟩

/-- A push of a register pair is orderly. -/
theorem orderly_push (pair : RegisterPair) : Orderly (.push pair.places) :=
  fun s => inOrder_onStack s.sp rfl rfl nofun

/-- A pop into any register pair but the stack pointer is orderly. -/
theorem orderly_pop {pair : RegisterPair} (other : pair ≠ .sp) : Orderly (.pop pair.places) := by
  intro s
  obtain ⟨⟨highHigh, highLow⟩, ⟨lowHigh, lowLow⟩, apart⟩ := RegisterPair.apart_of_ne_sp other
  have ne : ∀ {r q : Register}, r ≠ q → Place.register r ≠ .register q :=
    fun differ same => differ (Place.register.inj same)
  have upper : InOrder (.move (.register pair.high) (place (s.sp + 1)) :: pairDeeds .sp) :=
    .cons rfl (spares_pairDeeds .sp (ne highHigh) (ne highLow)) (inOrder_pairDeeds .sp)
  have second : Deed.Spares (.move (.register pair.high) (place (s.sp + 1)))
      (.move (.register pair.low) (place s.sp)) :=
    ⟨ne apart.symm, fun same => place_ne_register _ _ (Option.some.inj same)⟩
  exact .cons rfl (List.forall_mem_cons.mpr
    ⟨second, spares_pairDeeds .sp (ne lowHigh) (ne lowLow)⟩) upper

/-- A word is the result of an operation that sets the flags first. -/
theorem inOrder_flagsWord {pair : RegisterPair} (other : pair ≠ .af) :
    InOrder [.flags, .write (.register pair.low), .write (.register pair.high)] := by
  cases pair <;> first | contradiction | exact ⟨by decide, by decide⟩

/-- A byte is the result of an operation that sets the flags afterwards. -/
theorem inOrder_writeFlags {target : Place} (operand : Operand target) :
    InOrder [.write target, .flags] :=
  .two operand.present rfl ⟨operand.ne_flags.symm, nofun⟩

/-- The upper byte of a word is written after the lower one, if it is. -/
theorem inOrder_stepWordDeeds (s : System FlatMemory) (pair : RegisterPair) (step carries : UInt8) :
    InOrder (s.stepWordDeeds pair.places step carries) := by
  unfold stepWordDeeds
  split
  · refine .two rfl rfl ?_
    cases pair <;> decide
  · exact .one rfl

/-- A result is put into the accumulator in good order. -/
theorem inOrder_resultDeeds (old result : UInt8) :
    InOrder (resultDeeds Decoder.accumulator old result) := by
  unfold resultDeeds
  split
  · exact .two rfl rfl (by decide)
  · exact .one rfl

/-- The arithmetic of the accumulator is orderly. -/
theorem orderly_arithmeticOf (index : Nat) (operand : Place) :
    Orderly (Decoder.arithmeticOf index operand) := by
  intro s
  unfold Decoder.arithmeticOf
  split <;> first | exact inOrder_resultDeeds _ _ | exact .one rfl

/-- The other operations of the accumulator are orderly. -/
theorem orderly_accumulatorActionOf (index : Nat) :
    Orderly (Decoder.accumulatorActionOf index) := by
  intro s
  unfold Decoder.accumulatorActionOf
  split <;> first | exact inOrder_writeFlags operand_accumulator | exact .one rfl

/-! ## Decoded operations -/

section Decoded

open Handheld.Decoder

variable (registers : Registers) (memory : FlatMemory)

/-- The deeds of an operation are in good order in every state. -/
def OrderlyOperation (operation : Operation) : Prop :=
  ∀ s : System FlatMemory, InOrder (s.deedsOf operation)

/-- An operation that leaves HL alone does the deeds of its action. -/
theorem orderly_of_action {operation : Operation} (orderly : Orderly operation.action)
    (plain : operation.hlStep = 0) : OrderlyOperation operation := by
  intro s
  unfold deedsOf
  rw [if_pos plain, List.append_nil]
  exact orderly _

/-- HL may move after a byte was moved to a place outside it. -/
theorem orderly_of_load8 {operation : Operation} {destination source : Place}
    (loads : operation.action = .load8 destination source) (operand : Operand destination)
    (high : destination ≠ .register .h) (low : destination ≠ .register .l) :
    OrderlyOperation operation := by
  intro s
  unfold deedsOf
  rw [loads]
  split
  · exact .one operand.present
  · exact .cons operand.present (spares_pairDeeds .hl high low) (inOrder_pairDeeds .hl)

/-- An operation that does nothing to bytes is orderly. -/
theorem orderly_of_nothing {operation : Operation}
    (nothing : ∀ s : System FlatMemory, s.deeds operation.action = [])
    (plain : operation.hlStep = 0) : OrderlyOperation operation := by
  refine orderly_of_action (fun s => ?_) plain
  rw [nothing]
  exact .nil

/-- What an address stands for is an operand. -/
theorem operand_resolve (address : UInt16) : Operand (AddressSpace.resolve memory address) :=
  .inr ⟨address, rfl⟩

/-- What a selector names is an operand. -/
theorem operand_byteOperand (index : Nat) : Operand (byteOperand registers memory index) := by
  unfold byteOperand
  split
  all_goals first | exact operand_resolve _ _ | exact .inl ⟨_, by decide, rfl⟩

/-- The loads through register pairs are orderly. -/
theorem orderly_indirectLoad (index : Nat) :
    OrderlyOperation (indirectLoad registers memory index).operation := by
  have through : ∀ {operation : Operation} {address : UInt16},
      operation.action = .load8 (AddressSpace.resolve memory address) accumulator →
        OrderlyOperation operation := fun stores =>
    orderly_of_load8 stores (operand_resolve _ _) nofun nofun
  have back : ∀ {operation : Operation} {address : UInt16},
      operation.action = .load8 accumulator (AddressSpace.resolve memory address) →
        OrderlyOperation operation := fun loads =>
    orderly_of_load8 loads operand_accumulator nofun nofun
  unfold indirectLoad
  split <;> first | exact through rfl | exact back rfl

/-- A load of a byte into an operand is orderly. -/
theorem orderly_load8 {destination source : Place} (operand : Operand destination) :
    Orderly (.load8 destination source) := fun _ => .one operand.present

/-- The operations of the first quarter are orderly. -/
theorem orderly_firstQuarter (address : UInt16) (y z : Nat) :
    OrderlyOperation (firstQuarter registers memory address y z).operation := by
  unfold firstQuarter
  split
  · split
    · exact orderly_of_nothing (fun _ => rfl) rfl
    · have apart : ∀ a : UInt16, place a ≠ place (a + 1) := by
        intro a same
        have wraps := place_inj.mp same
        grind
      exact orderly_of_action
        (orderly_load16 (present_place _ _) (present_place _ _) (apart _) nofun) rfl
    · exact orderly_of_nothing (fun _ => rfl) rfl
    · exact orderly_of_nothing (fun _ => rfl) rfl
    · exact orderly_of_nothing (fun _ => rfl) rfl
  · dsimp only
    split
    · exact orderly_of_action (orderly_load16 rfl rfl (RegisterPair.places_apart _) nofun) rfl
    · exact orderly_of_action (fun s => inOrder_flagsWord (by decide)) rfl
  · exact orderly_indirectLoad registers memory y
  · refine orderly_of_action ?_ rfl
    intro s
    dsimp only [plain]
    split <;> exact s.inOrder_stepWordDeeds _ _ _
  · exact orderly_of_action (fun s => inOrder_writeFlags (operand_byteOperand _ _ _)) rfl
  · exact orderly_of_action (fun s => inOrder_writeFlags (operand_byteOperand _ _ _)) rfl
  · exact orderly_of_action (orderly_load8 (operand_byteOperand _ _ _)) rfl
  · exact orderly_of_action (orderly_accumulatorActionOf _) rfl

/-- The operations of the second quarter are orderly. -/
theorem orderly_secondQuarter (y z : Nat) :
    OrderlyOperation (secondQuarter registers memory y z).operation := by
  unfold secondQuarter
  split
  · exact orderly_of_nothing (fun _ => rfl) rfl
  · exact orderly_of_action (orderly_load8 (operand_byteOperand _ _ _)) rfl

/-- The operations of the third quarter are orderly. -/
theorem orderly_thirdQuarter (y z : Nat) :
    OrderlyOperation (thirdQuarter registers memory y z).operation :=
  orderly_of_action (orderly_arithmeticOf _ _) rfl

/-- The bit instructions are orderly. -/
theorem orderly_bitInstruction (opcode : UInt8) :
    OrderlyOperation (bitInstruction registers memory opcode).operation := by
  have operand := operand_byteOperand registers memory (opcode.toNat % 8)
  refine orderly_of_action ?_ rfl
  intro s
  unfold bitInstruction
  dsimp only [plain]
  split
  · exact inOrder_writeFlags operand
  · exact .one rfl
  · exact .one operand.present
  · exact .one operand.present

/-- A return is orderly. -/
theorem orderly_ret (condition : Condition) : Orderly (.ret condition) :=
  fun _ => (inOrder_pairDeeds .sp).ite

/-- A call is orderly. -/
theorem orderly_call (condition : Condition) (target : PlacePair) :
    Orderly (.call condition target) :=
  fun s => s.inOrder_pushPcDeeds.ite

/-- The operations of the fourth quarter are orderly. -/
theorem orderly_fourthQuarter (address : UInt16) (y z : Nat) :
    OrderlyOperation (fourthQuarter registers memory address y z).operation := by
  have illegal : OrderlyOperation .illegal :=
    orderly_of_nothing (fun _ => rfl) rfl
  have stores : ∀ {target : UInt16} {length : UInt8} {cycles : UInt32},
      OrderlyOperation (plain (.load8 (AddressSpace.resolve memory target) accumulator) length
        cycles).operation :=
    orderly_of_action (orderly_load8 (operand_resolve _ _)) rfl
  have loads : ∀ {source : Place} {length : UInt8} {cycles : UInt32},
      OrderlyOperation (plain (.load8 accumulator source) length cycles).operation :=
    orderly_of_action (orderly_load8 operand_accumulator) rfl
  unfold fourthQuarter
  split
  · split
    · exact stores
    · exact orderly_of_action (fun s => inOrder_flagsWord (by decide)) rfl
    · exact loads
    · exact orderly_of_action (fun s => inOrder_flagsWord (by decide)) rfl
    · exact orderly_of_action (orderly_ret _) rfl
  · split
    · exact orderly_of_action (orderly_ret _) rfl
    · exact orderly_of_action (fun _ => inOrder_pairDeeds .sp) rfl
    · exact orderly_of_nothing (fun _ => rfl) rfl
    · exact orderly_of_action (orderly_load16 rfl rfl (by decide) (by decide)) rfl
    · exact orderly_of_action (orderly_pop (stackPairOf_ne_sp _)) rfl
  · split
    · exact stores
    · exact stores
    · exact loads
    · exact loads
    · exact orderly_of_nothing (fun _ => rfl) rfl
  · split
    · exact orderly_of_nothing (fun _ => rfl) rfl
    · exact orderly_bitInstruction registers memory _
    · exact orderly_of_nothing (fun _ => rfl) rfl
    · exact orderly_of_nothing (fun _ => rfl) rfl
    · exact illegal
  · split
    · exact orderly_of_action (orderly_call _ _) rfl
    · exact illegal
  · split
    · exact orderly_of_action (orderly_call _ _) rfl
    · exact illegal
    · exact illegal
    · exact illegal
    · exact orderly_of_action (orderly_push _) rfl
  · exact orderly_of_action (orderly_arithmeticOf _ _) rfl
  · exact orderly_of_action (fun s => s.inOrder_pushPcDeeds) rfl

/-- Whatever is decoded is orderly. -/
theorem orderly_decode (address : UInt16) :
    OrderlyOperation (Handheld.decode registers memory address).operation := by
  unfold Handheld.decode
  dsimp only
  split
  · exact orderly_firstQuarter registers memory address _ _
  · exact orderly_secondQuarter registers memory _ _
  · exact orderly_thirdQuarter registers memory _ _
  · exact orderly_fourthQuarter registers memory address _ _

end Decoded

/-! ## What an operation reaches -/

/-- The moves of an action, each with the place it takes a byte to and the place it takes it
from. -/
inductive Moves (sp : UInt16) : Action → Place → Place → Prop where
  | load8 (destination source : Place) : Moves sp (.load8 destination source) destination source
  | load16High (destination source : PlacePair) :
    Moves sp (.load16 destination source) destination.high source.high
  | load16Low (destination source : PlacePair) :
    Moves sp (.load16 destination source) destination.low source.low
  | pushHigh (source : PlacePair) : Moves sp (.push source) (place (sp - 1)) source.high
  | pushLow (source : PlacePair) : Moves sp (.push source) (place (sp - 2)) source.low
  | popHigh (destination : PlacePair) :
    Moves sp (.pop destination) destination.high (place (sp + 1))
  | popLow (destination : PlacePair) : Moves sp (.pop destination) destination.low (place sp)

variable (s : System FlatMemory)

/-- Nothing is moved when a register pair is written. -/
theorem move_notMem_pairDeeds (pair : RegisterPair) (q source : Place) :
    .move q source ∉ pairDeeds pair := by
  simp [pairDeeds]

/-- The deeds of an action move a byte exactly where the action names that move. -/
theorem move_mem_deeds_iff (action : Action) (q source : Place) :
    .move q source ∈ s.deeds action ↔ Moves s.sp action q source := by
  constructor
  · intro mem
    cases action with
    | load8 destination source =>
      cases List.mem_singleton.mp mem
      exact .load8 _ _
    | load16 destination source =>
      rcases mem with _ | ⟨_, _ | ⟨_, ⟨⟩⟩⟩
      · exact .load16High _ _
      · exact .load16Low _ _
    | push source =>
      rcases mem with _ | ⟨_, _ | ⟨_, rest⟩⟩
      · exact .pushHigh _
      · exact .pushLow _
      · exact absurd rest (move_notMem_pairDeeds _ _ _)
    | pop destination =>
      rcases mem with _ | ⟨_, _ | ⟨_, rest⟩⟩
      · exact .popLow _
      · exact .popHigh _
      · exact absurd rest (move_notMem_pairDeeds _ _ _)
    | inc16 | dec16 =>
      simp only [deeds, stepWordDeeds] at mem
      split at mem <;> simp at mem
    | sum8 | logic8 =>
      simp only [deeds, resultDeeds] at mem
      split at mem <;> simp at mem
    | _ => simp [deeds, pushPcDeeds, pairDeeds] at mem
  · intro moves
    cases moves with
    | load8 | load16High | pushHigh | popLow => exact List.mem_cons_self
    | load16Low | pushLow | popHigh => exact List.mem_cons_of_mem _ List.mem_cons_self

/-- A deed of an action reaches a register, or the destination of the action, or the stack if the
action pushes a word. -/
theorem reached_of_deeds (action : Action) : ∀ deed ∈ s.deeds action,
    (∃ r, deed.place = .register r) ∨
      some deed.place ∈ [action.operands.destinationHigh, action.operands.destinationLow] ∨
      action.pushes s.flags = true ∧ deed.place ∈ [place (s.sp - 1), place (s.sp - 2)] := by
  have resolved : ∀ (t : System FlatMemory) (a : UInt16), t.resolve a = place a := fun _ _ => rfl
  cases action with
  | inc16 | dec16 =>
    simp only [deeds, stepWordDeeds]
    split <;> simp [Deed.place, Action.operands]
  | sum8 | logic8 =>
    simp only [deeds, resultDeeds]
    split <;> simp [Deed.place, Action.operands]
  | call =>
    simp only [deeds]
    split
    next holds => simp [pushPcDeeds, pairDeeds, Deed.place, Action.pushes, resolved, holds]
    next => simp
  | ret =>
    simp only [deeds]
    split <;> simp [pairDeeds, Deed.place]
  | _ =>
    simp [deeds, pushPcDeeds, pairDeeds, Deed.place, Action.operands, Action.pushes, resolved]

/-- Counting the length and the cycles of an operation leaves stack pointer and flags alone. -/
theorem ready_sp_flags (operation : Operation) :
    (s.ready operation).sp = s.sp ∧ (s.ready operation).flags = s.flags := by
  unfold sp flags
  rw [ready_cpu]
  exact ⟨rfl, rfl⟩

/-- The step of HL moves nothing and reaches registers alone. -/
theorem deeds_hl (operation : Operation) :
    ∀ deed ∈ if operation.hlStep = 0 then [] else pairDeeds .hl,
      deed.isMove = false ∧ ∃ r, deed.place = .register r := by
  split <;> simp [pairDeeds, Deed.isMove, Deed.place]

/-- The deeds of an operation move a byte exactly where its action names that move. -/
theorem move_mem_deedsOf_iff (operation : Operation) (q source : Place) :
    .move q source ∈ s.deedsOf operation ↔ Moves s.sp operation.action q source := by
  obtain ⟨sp, -⟩ := s.ready_sp_flags operation
  rw [← sp, ← move_mem_deeds_iff]
  refine ⟨fun mem => ?_, List.mem_append_left _⟩
  obtain acts | steps := List.mem_append.mp mem
  · exact acts
  · obtain ⟨⟨⟩, -⟩ := deeds_hl operation _ steps

/-- An operation reaches registers, its destinations, and the two bytes below the stack pointer if
it pushes. -/
theorem reached_of_deedsOf (operation : Operation) : ∀ deed ∈ s.deedsOf operation,
    (∃ r, deed.place = .register r) ∨
      some deed.place ∈
        [operation.action.operands.destinationHigh, operation.action.operands.destinationLow] ∨
      operation.action.pushes s.flags = true ∧
        deed.place ∈ [place (s.sp - 1), place (s.sp - 2)] := by
  intro deed mem
  obtain acts | steps := List.mem_append.mp mem
  · obtain ⟨sp, flags⟩ := s.ready_sp_flags operation
    rw [← sp, ← flags]
    exact reached_of_deeds _ _ _ acts
  · exact .inl (deeds_hl operation deed steps).2

/-! ## Origins -/

/-- A recorded origin accounts for the value. After any operation that is decoded, whatever state
it is executed in, each place other than the flags holds what it held before, or a byte that was
written there and has no origin, or a byte that a move has taken to it; and that is the byte that
the source of the move held before, with the origin of that byte or else the source as its
origin. In memory no place holds anything else than before but the destination of the operation
and, if it pushes a word, the two bytes below the stack pointer. -/
theorem origins_account_for_values (s : System FlatMemory) (registers : Registers)
    (memory : FlatMemory) (address : UInt16) :
    let operation := (Handheld.decode registers memory address).operation
    let operands := operation.action.operands
    let t := s.execute operation
    (∀ q, q ≠ .register .f →
      t.held q = s.held q ∨ (.write q ∈ s.deedsOf operation ∧ (t.held q).2 = none) ∨
        ∃ source, Moves s.sp operation.action q source) ∧
    (∀ q source, q ≠ .register .f → Moves s.sp operation.action q source →
      t.held q = s.taken source) ∧
    ∀ a, t.held (place a) = s.held (place a) ∨
      some (place a) ∈ [operands.destinationHigh, operands.destinationLow] ∨
      operation.action.pushes s.flags = true ∧ a ∈ [s.sp - 1, s.sp - 2] := by
  intro operation operands t
  obtain ⟨_, -, works⟩ := Works.execute s operation
  have accounted := accounted_of_works works (orderly_decode registers memory address s)
  refine ⟨?_, ?_, ?_⟩
  · intro q other
    by_cases reached : ∃ deed ∈ s.deedsOf operation, deed.place = q
    · right
      obtain ⟨deed, mem, rfl⟩ := reached
      cases deed with
      | write p => exact .inl ⟨mem, accounted.written p mem⟩
      | move p source => exact .inr ⟨source, (s.move_mem_deedsOf_iff operation p source).mp mem⟩
      | flags => exact absurd rfl other
    · exact .inl (accounted.unreached q fun deed mem here => reached ⟨deed, mem, here⟩)
  · intro q source other moves
    have mem := (s.move_mem_deedsOf_iff operation q source).mpr moves
    rw [accounted.moved q source mem, kept, if_neg other]
  · intro a
    by_cases reached : ∃ deed ∈ s.deedsOf operation, deed.place = place a
    · right
      obtain ⟨deed, mem, here⟩ := reached
      have reaches := s.reached_of_deedsOf operation deed mem
      rw [here] at reaches
      obtain ⟨r, register⟩ | destination | ⟨pushes, stack⟩ := reaches
      · exact absurd register (place_ne_register a r)
      · exact .inl destination
      · exact .inr ⟨pushes, by simpa [place_inj] using stack⟩
    · exact .inl (accounted.unreached _ fun deed mem here => reached ⟨deed, mem, here⟩)

/-- A processor that is about to store the accumulator through HL and to move HL on. -/
def storing : System FlatMemory where
  cpu := { registers := ({ a := 5 } : Registers).setPair .hl 0xC000 }
  bus := ({} : FlatMemory).store (place 0) 0x22

/-- The example state decodes a store of the accumulator through HL that moves HL on. -/
theorem decode_storing {memory : FlatMemory} (opcode : AddressSpace.read memory 0 = 0x22) :
    (Handheld.decode storing.cpu.registers memory 0).operation =
      { action := .load8 (place 0xC000) (.register .a), length := 1, cycles := 8
        hlStep := 1 } := by
  unfold Handheld.decode
  rw [opcode]
  rfl

/-- The byte in memory comes from the accumulator, and the byte next to it is what it was. -/
theorem origins_account_for_values_of_storing :
    let t := storing.execute (Handheld.decode storing.cpu.registers storing.bus 0).operation
    t.held (place 0xC000) = (5, some (.register .a)) ∧
      t.held (place 0xC001) = storing.held (place 0xC001) := by
  intro t
  have opcode : AddressSpace.read storing.bus 0 = 0x22 := FlatMemory.read_store {} 0 0x22
  obtain ⟨-, moved, reached⟩ :=
    storing.origins_account_for_values storing.cpu.registers storing.bus 0
  refine ⟨?_, ?_⟩
  · refine moved (place 0xC000) (.register .a) nofun ?_
    rw [decode_storing opcode]
    exact .load8 _ _
  · obtain same | destination | ⟨pushes, -⟩ := reached 0xC001
    · exact same
    · rw [decode_storing opcode] at destination
      have apart : place 0xC001 ≠ place 0xC000 := by decide
      simp [Action.operands, apart] at destination
    · rw [decode_storing opcode] at pushes
      cases pushes

end System

end Handheld
