import Mathlib.Logic.Function.Iterate
import Handheld.Machine
import Handheld.Proofs.Records
import Handheld.Proofs.System

/-!
# Decoding has no effect but remarks

The decoder looks at registers and bytes, and the remarks it makes end up in the ledger. They
are remarks on addresses and words only, and they reach no more of the ledger than usage
records: `Annotated` says that one state differs from another in nothing else.

A remark that has been booked can be booked again without any further change, and remarks can
be booked in any order, since all of them carry the same bank and none of them changes an
origin through which another one finds its place. So a second look at the same address changes
nothing, down to the notes for which the ledger has made room.
-/

set_option autoImplicit false

namespace Handheld

/-- What the decoder can remark: that a byte was half of an address or half of a word. -/
def Usage.pointerOrWord : Usage :=
  ((pointerLow.union pointerHigh).union wordLow).union wordHigh

/-- The four kinds of remark are parts of their union. -/
theorem Usage.subset_pointerOrWord :
    pointerLow ⊆ pointerOrWord ∧ pointerHigh ⊆ pointerOrWord ∧ wordLow ⊆ pointerOrWord ∧
      wordHigh ⊆ pointerOrWord := by
  decide

/-- The kinds of use that a remark adds. -/
def Mark.usage : Mark → Usage
  | .place _ usage | .originOf _ usage => usage

/-! ## The remarks of the decoder -/

namespace Decoder

variable {β : Type} [AddressSpace β] (registers : Registers) (bus : β)

/-- All remarks are on addresses and words. -/
def Remarks (marks : List Mark) : Prop := ∀ mark ∈ marks, mark.usage ⊆ .pointerOrWord

/-- An empty list has no other remarks. -/
theorem remarks_nil : Remarks [] := by
  intro mark mem
  cases mem

/-- Two lists of such remarks are one. -/
theorem remarks_append {first second : List Mark} (before : Remarks first)
    (after : Remarks second) : Remarks (first ++ second) := by
  intro mark mem
  exact (List.mem_append.mp mem).elim (before mark) (after mark)

/-- Two such remarks are a list of them. -/
theorem remarks_of_two {first second : Mark} (before : first.usage ⊆ .pointerOrWord)
    (after : second.usage ⊆ .pointerOrWord) : Remarks [first, second] := by
  intro mark mem
  rcases mem with _ | ⟨_, _ | ⟨_, ⟨⟩⟩⟩
  · exact before
  · exact after

/-- The remarks on a pointer are on the halves of an address. -/
theorem remarks_pointer (pair : RegisterPair) : Remarks (pointerMarks pair) := by
  obtain ⟨low, high, -⟩ := Usage.subset_pointerOrWord
  exact remarks_of_two high low

/-- The remarks on an absolute address are on its halves. -/
theorem remarks_absolute (pair : PlacePair) : Remarks (absoluteMarks pair) := by
  obtain ⟨low, high, -⟩ := Usage.subset_pointerOrWord
  exact remarks_of_two high low

/-- The remarks on an operand are on the halves of its pointer. -/
theorem remarks_operand (index : Nat) : Remarks (operandMarks index) := by
  unfold operandMarks
  split
  · exact remarks_pointer .hl
  · exact remarks_nil

/-- The remarks on a load through a register pair are on addresses and words. -/
theorem remarks_indirectLoad (index : Nat) : Remarks (indirectLoad registers bus index).marks := by
  unfold indirectLoad
  split <;> first | exact remarks_nil | exact remarks_pointer _

/-- The remarks in the first quarter of the opcodes are on addresses and words. -/
theorem remarks_firstQuarter (address : UInt16) (y z : Nat) :
    Remarks (firstQuarter registers bus address y z).marks := by
  unfold firstQuarter
  split
  · split <;> first | exact remarks_nil | exact remarks_absolute _
  · dsimp only
    split
    · obtain ⟨-, -, low, high⟩ := Usage.subset_pointerOrWord
      exact remarks_of_two low high
    · exact remarks_nil
  · exact remarks_indirectLoad registers bus y
  · exact remarks_nil
  · exact remarks_operand y
  · exact remarks_operand y
  · exact remarks_operand y
  · exact remarks_nil

/-- The remarks in the second quarter of the opcodes are on addresses and words. -/
theorem remarks_secondQuarter (y z : Nat) : Remarks (secondQuarter registers bus y z).marks := by
  unfold secondQuarter
  split
  · exact remarks_nil
  · exact remarks_append (remarks_operand y) (remarks_operand z)

/-- The remarks in the fourth quarter of the opcodes are on addresses and words. -/
theorem remarks_fourthQuarter (address : UInt16) (y z : Nat) :
    Remarks (fourthQuarter registers bus address y z).marks := by
  unfold fourthQuarter
  split
  · split <;> exact remarks_nil
  · split <;> exact remarks_nil
  · split <;> first | exact remarks_nil | exact remarks_absolute _
  · split <;> first | exact remarks_nil | exact remarks_operand _
  · split <;> exact remarks_nil
  · split <;> exact remarks_nil
  · exact remarks_nil
  · exact remarks_nil

/-- Whatever is decoded, all remarks are on addresses and words. -/
theorem remarks_decode (address : UInt16) :
    Remarks (Handheld.decode registers bus address).marks := by
  unfold Handheld.decode
  dsimp only
  split
  · exact remarks_firstQuarter registers bus address _ _
  · exact remarks_secondQuarter registers bus _ _
  · exact remarks_operand _
  · exact remarks_fourthQuarter registers bus address _ _

end Decoder

namespace System

variable {β : Type} [AddressSpace β]

/-! ## What a remark changes -/

/-- One state differs from another in usage records only, to which kinds of use from a given
set have been added under the bank that is selected. -/
structure Annotated (kinds : Usage) (s next : System β) : Prop where
  cpu : next.cpu = s.cpu
  bus : next.bus = s.bus
  journal : next.journal = s.journal
  origin : ∀ p, (next.ledger.note p).origin = (s.ledger.note p).origin
  record : ∀ p, (next.ledger.note p).record = (s.ledger.note p).record ∨
    ∃ usage ⊆ kinds, (next.ledger.note p).record =
      (s.ledger.note p).record.mark usage (AddressSpace.romBank s.bus)

namespace Annotated

variable {kinds : Usage} {s t u : System β}

/-- A state differs in nothing from itself. -/
theorem refl (s : System β) : Annotated kinds s s :=
  ⟨rfl, rfl, rfl, fun _ => rfl, fun _ => .inl rfl⟩

/-- Additions to the usage records may be made one after the other. -/
theorem trans (first : Annotated kinds s t) (second : Annotated kinds t u) :
    Annotated kinds s u where
  cpu := second.cpu.trans first.cpu
  bus := second.bus.trans first.bus
  journal := second.journal.trans first.journal
  origin p := (second.origin p).trans (first.origin p)
  record p := by
    obtain same | ⟨later, allowed, marked⟩ := second.record p
    · rw [same]
      exact first.record p
    · rw [first.bus] at marked
      obtain same | ⟨before, allowedBefore, markedBefore⟩ := first.record p
      · rw [same] at marked
        exact .inr ⟨later, allowed, marked⟩
      · rw [markedBefore, UsageRecord.mark_mark] at marked
        exact .inr ⟨before.union later, Usage.union_subset allowedBefore allowed, marked⟩

/-- Marking a use adds it to the usage records. -/
theorem mark (s : System β) (place : Place) {usage : Usage} (allowed : usage ⊆ kinds) :
    Annotated kinds s (s.mark place usage) := by
  rw [mark_eq]
  split
  · refine ⟨rfl, rfl, rfl, fun p => s.ledger.origin_mark place p usage _, ?_⟩
    intro p
    obtain same | ⟨-, marked⟩ := s.ledger.note_modify_cases place p fun note =>
      { note with record := note.record.mark usage (AddressSpace.romBank s.bus) }
    · exact .inl (congrArg Note.record same)
    · exact .inr ⟨usage, allowed, congrArg Note.record marked⟩
  · exact refl s

/-- A remark adds its kinds of use to the usage records. -/
theorem applyMark (s : System β) {mark : Mark} (allowed : mark.usage ⊆ kinds) :
    Annotated kinds s (s.applyMark mark) := by
  cases mark with
  | place target usage => exact .mark s target allowed
  | originOf target usage =>
    show Annotated kinds s (s.markOrigin target usage)
    unfold markOrigin
    split
    · exact .mark s _ allowed
    · exact refl s

/-- Remarks add their kinds of use to the usage records. -/
theorem applyMarks (s : System β) {marks : List Mark}
    (allowed : ∀ mark ∈ marks, mark.usage ⊆ kinds) :
    Annotated kinds s (marks.foldl System.applyMark s) := by
  induction marks generalizing s with
  | nil => exact refl s
  | cons mark marks ih =>
    have first := applyMark s (allowed mark List.mem_cons_self)
    exact first.trans (ih _ fun later mem => allowed later (List.mem_cons_of_mem _ mem))

end Annotated

/-! ## Remarks that are booked again -/

/-- The place that a remark is about. -/
def aim (s : System β) : Mark → Option Place
  | .place target _ => some target
  | .originOf target _ => s.origin? target

/-- A remark marks the place that it is about, if there is one. -/
theorem applyMark_eq (s : System β) (mark : Mark) :
    s.applyMark mark =
      match s.aim mark with
      | some place => s.mark place mark.usage
      | none => s := by
  cases mark <;> rfl

/-- No remark moves the aim of another. -/
theorem aim_applyMark (s : System β) (first second : Mark) :
    (s.applyMark first).aim second = s.aim second := by
  obtain ⟨-, bus, -, origin, -⟩ := Annotated.applyMark s (Usage.subset_refl first.usage)
  cases second with
  | place target usage => rfl
  | originOf target usage =>
    show (s.applyMark first).ledger.origin? _ target = s.ledger.origin? _ target
    unfold Ledger.origin?
    rw [bus, origin]

/-- Two marks may be made in either order. -/
theorem mark_comm (s : System β) (p q : Place) (first second : Usage) :
    (s.mark p first).mark q second = (s.mark q second).mark p first := by
  have either : ∀ note : Note, ∀ bank : Nat,
      (note.record.mark first bank).mark second bank =
        (note.record.mark second bank).mark first bank := by
    intro note bank
    rw [UsageRecord.mark_mark, UsageRecord.mark_mark, Usage.union_comm]
  simp only [mark_eq]
  split <;> split
  · congr 1
    apply Ledger.modify_comm
    intro note
    rw [either]
  all_goals rfl

/-- A mark that is made again adds nothing. -/
theorem mark_again (s : System β) (p : Place) (usage : Usage) :
    (s.mark p usage).mark p usage = s.mark p usage := by
  simp only [mark_eq]
  split
  · congr 1
    unfold Ledger.mark
    rw [Ledger.modify_modify]
    congr 1
    funext note
    simp only [Function.comp_apply, UsageRecord.mark_mark, Usage.union_self]
  · rfl

/-- Two remarks may be made in either order. -/
theorem applyMark_comm (s : System β) (first second : Mark) :
    (s.applyMark first).applyMark second = (s.applyMark second).applyMark first := by
  rw [applyMark_eq (s.applyMark first), applyMark_eq (s.applyMark second), aim_applyMark,
    aim_applyMark, applyMark_eq s first, applyMark_eq s second]
  split <;> split
  · exact s.mark_comm _ _ _ _
  all_goals rfl

/-- A remark that is made again adds nothing. -/
theorem applyMark_again (s : System β) (mark : Mark) :
    (s.applyMark mark).applyMark mark = s.applyMark mark := by
  rw [applyMark_eq (s.applyMark mark), aim_applyMark]
  rw [applyMark_eq s mark]
  split
  · exact s.mark_again _ _
  · rfl

/-- A row of remarks that are all booked already changes nothing. -/
theorem applyMarks_of_booked {s : System β} {marks : List Mark}
    (booked : ∀ mark ∈ marks, s.applyMark mark = s) : marks.foldl applyMark s = s := by
  induction marks with
  | nil => rfl
  | cons mark marks ih =>
    rw [List.foldl_cons, booked mark List.mem_cons_self]
    exact ih fun later mem => booked later (List.mem_cons_of_mem _ mem)

/-- A remark that is booked stays booked. -/
theorem applyMarks_booked {s : System β} {mark : Mark} (booked : s.applyMark mark = s)
    (marks : List Mark) :
    (marks.foldl applyMark s).applyMark mark = marks.foldl applyMark s := by
  induction marks generalizing s with
  | nil => exact booked
  | cons later marks ih =>
    apply ih
    rw [applyMark_comm, booked]

/-- Remarks that are made again add nothing. -/
theorem applyMarks_again (s : System β) (marks : List Mark) :
    marks.foldl applyMark (marks.foldl applyMark s) = marks.foldl applyMark s := by
  apply applyMarks_of_booked
  intro mark mem
  induction marks generalizing s with
  | nil => cases mem
  | cons first marks ih =>
    cases mem with
    | head => exact applyMarks_booked (s.applyMark_again mark) marks
    | tail _ later => exact ih (s.applyMark first) later

/-- Decoding adds remarks on addresses and words, and nothing else. -/
theorem annotated_decode (s : System β) (address : UInt16) :
    Annotated .pointerOrWord s (s.decode address).1 :=
  .applyMarks s (Decoder.remarks_decode s.cpu.registers s.bus address)

/-- A second look at an address shows the same operation and changes nothing. -/
theorem decode_again (s : System β) (address : UInt16) :
    (s.decode address).1.decode address = s.decode address := by
  have same : Handheld.decode (s.decode address).1.cpu.registers (s.decode address).1.bus address =
      Handheld.decode s.cpu.registers s.bus address := by
    rw [decode_cpu, decode_bus]
  unfold decode at same ⊢
  simp only [same, applyMarks_again]

end System

/-- Decoding on request is decoding in the system. -/
theorem Machine.decodeAt_eq (m : Machine) (address : UInt16) :
    m.decodeAt address =
      ({ toSystem := (m.toSystem.decode address).1, quit := m.quit, frameDone := m.frameDone },
        (m.toSystem.decode address).2) := rfl

/-- Decoding has no effect but remarks. Whatever address space the processor works in, nothing
changes but usage records, to which kinds of use of addresses and words are added under the
selected bank, and looking at the same address again, any number of times, shows the same
operation and changes nothing more. The same holds of a machine, whose switches stay too. -/
theorem decoding_only_annotates :
    (∀ (β : Type) [AddressSpace β] (s : System β) (address : UInt16),
      let next := (s.decode address).1
      System.Annotated .pointerOrWord s next ∧
        ∀ n, ((fun t => (t.decode address).1)^[n] next).decode address =
          (next, (s.decode address).2)) ∧
    ∀ (m : Machine) (address : UInt16),
      let next := (m.decodeAt address).1
      System.Annotated .pointerOrWord m.toSystem next.toSystem ∧
        next.quit = m.quit ∧ next.frameDone = m.frameDone ∧
        (∀ place,
          (next.cell? place).map (fun cell => (cell.identity, cell.value, cell.note.origin)) =
            (m.cell? place).map fun cell => (cell.identity, cell.value, cell.note.origin)) ∧
        ∀ n, ((fun t => (t.decodeAt address).1)^[n] next).decodeAt address =
          (next, (m.decodeAt address).2) := by
  constructor
  · intro β _ s address next
    refine ⟨s.annotated_decode address, ?_⟩
    intro n
    have fixed : (next.decode address).1 = next := congrArg Prod.fst (s.decode_again address)
    rw [Function.iterate_fixed fixed]
    exact s.decode_again address
  · intro m address next
    have annotated : System.Annotated .pointerOrWord m.toSystem next.toSystem :=
      m.annotated_decode address
    refine ⟨annotated, rfl, rfl, ?_, ?_⟩
    · intro place
      have byte : next.byte? place = m.byte? place := by
        cases place <;> simp only [System.byte?, annotated.cpu, annotated.bus]
      unfold Machine.cell?
      rw [byte, Option.map_map, Option.map_map]
      congr 1
      funext value
      exact congrArg (fun origin => (place.identity, value, origin)) (annotated.origin place)
    · intro n
      have again : next.decodeAt address = (next, (m.decodeAt address).2) := by
        have same : next.toSystem.decode address = m.toSystem.decode address :=
          m.decode_again address
        rw [Machine.decodeAt_eq, same]
        rfl
      have fixed : (next.decodeAt address).1 = next := congrArg Prod.fst again
      rw [Function.iterate_fixed fixed]
      exact again

end Handheld
