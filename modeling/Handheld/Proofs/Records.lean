import Handheld.Ledger

/-!
# What is on record

The laws of usage records and of the ledger that keeps them.

* Nothing takes a kind of use from a record: marking adds what it is given (`usage_mark`), and
  the destination of a move leaves the kinds of use alone or adds to them
  (`usage_recordDestination`). Marking twice under one bank is marking once with the kinds of
  use of both (`mark_mark`).
* A change of the ledger reaches one note. Changes that commute on notes commute on the ledger
  (`modify_comm`), so a row of marks can be made in any order.
* A move that is booked changes the origin of its destination and no other (`origin_link`).
-/

set_option autoImplicit false

namespace Handheld

/-! ## Kinds of use -/

namespace Usage

instance : HasSubset Usage := ⟨fun first second => first.union second = second⟩

instance (first second : Usage) : Decidable (first ⊆ second) :=
  inferInstanceAs (Decidable (first.union second = second))

/-- Whether the kind of use with the given bit belongs to a set. -/
def has (usage : Usage) (i : Nat) : Bool := usage.bits.toBitVec.getLsbD i

/-- A union has the kinds of use that either part has. -/
theorem has_union (first second : Usage) (i : Nat) :
    (first.union second).has i = (first.has i || second.has i) := by
  unfold has union
  rw [UInt8.toBitVec_or, BitVec.getLsbD_or]

/-- A set of kinds of use is told by its eight bits. -/
theorem eq_of_has {first second : Usage} (same : ∀ i < 8, first.has i = second.has i) :
    first = second :=
  congrArg mk (UInt8.toBitVec_inj.mp (BitVec.eq_of_getLsbD_eq same))

/-- A union of three does not depend on the grouping. -/
theorem union_assoc (first second third : Usage) :
    (first.union second).union third = first.union (second.union third) :=
  congrArg mk (UInt8.or_assoc ..)

/-- A union does not depend on the order. -/
theorem union_comm (first second : Usage) : first.union second = second.union first :=
  congrArg mk (UInt8.or_comm ..)

/-- A set of kinds of use is its own union. -/
theorem union_self (usage : Usage) : usage.union usage = usage := congrArg mk (UInt8.or_self ..)

/-- A set of kinds of use is part of itself. -/
theorem subset_refl (usage : Usage) : usage ⊆ usage := usage.union_self

/-- The first set is part of a union. -/
theorem subset_union_left (first second : Usage) : first ⊆ first.union second := by
  show first.union (first.union second) = first.union second
  rw [← union_assoc, union_self]

/-- The second set is part of a union. -/
theorem subset_union_right (first second : Usage) : second ⊆ first.union second := by
  rw [union_comm]
  exact subset_union_left second first

/-- A part of a part is a part. -/
theorem subset_trans {first second third : Usage} (here : first ⊆ second)
    (there : second ⊆ third) : first ⊆ third := by
  have absorbed : first.union second = second := here
  have again : second.union third = third := there
  show first.union third = third
  rw [← again, ← union_assoc, absorbed]

/-- A union of two parts is a part. -/
theorem union_subset {first second third : Usage} (here : first ⊆ third)
    (there : second ⊆ third) : first.union second ⊆ third := by
  have absorbed : first.union third = third := here
  have again : second.union third = third := there
  show (first.union second).union third = third
  rw [union_assoc, again, absorbed]

end Usage

/-! ## Usage records -/

namespace UsageRecord

/-- A bit of the word. -/
def bit (record : UsageRecord) (i : Nat) : Bool := record.word.toBitVec.getLsbD i

/-- A record is told by its 64 bits. -/
theorem eq_of_bit {first second : UsageRecord} (same : ∀ i < 64, first.bit i = second.bit i) :
    first = second :=
  congrArg mk (UInt64.toBitVec_inj.mp (BitVec.eq_of_getLsbD_eq same))

/-- The kinds of use are the eight bits from bit 40 on. -/
theorem usage_has (record : UsageRecord) {i : Nat} (inside : i < 8) :
    record.usage.has i = record.bit (40 + i) := by
  simp [usage, Usage.has, bit, inside]

/-- Marking adds the kinds of use bit by bit and replaces the bits of the bank. -/
theorem bit_mark (record : UsageRecord) (usage : Usage) (bank : Nat) {i : Nat} (inside : i < 64) :
    (record.mark usage bank).bit i =
      if bankMask.toBitVec.getLsbD i then (UInt64.ofNat bank <<< 48).toBitVec.getLsbD i
      else record.bit i || (40 ≤ i && usage.has (i - 40)) := by
  have raised : (usage.bits.toUInt64 <<< 40).toBitVec.getLsbD i =
      (40 ≤ i && usage.has (i - 40)) := by
    simp only [UInt64.toBitVec_shiftLeft, UInt8.toBitVec_toUInt64, UInt64.toBitVec_ofNat,
      BitVec.ofNat_eq_ofNat, BitVec.reduceMod, BitVec.shiftLeft_eq', BitVec.toNat_ofNat,
      Nat.reducePow, Nat.reduceMod, inside, BitVec.getLsbD_eq_getElem, BitVec.getElem_shiftLeft,
      BitVec.getElem_setWidth, ← Nat.not_lt, decide_not, Usage.has]
  simp only [mark, bit, UInt64.toBitVec_or, UInt64.toBitVec_and, UInt64.toBitVec_not,
    BitVec.getLsbD_or, BitVec.getLsbD_and, BitVec.getLsbD_not, inside, decide_true,
    Bool.true_and, raised]
  cases bankMask.toBitVec.getLsbD i <;> simp

/-- The bank is not in the low 48 bits. -/
theorem bankMask_low {i : Nat} (low : i < 48) : bankMask.toBitVec.getLsbD i = false := by
  have all : ∀ i : Fin 48, bankMask.toBitVec.getLsbD i = false := by decide
  exact all ⟨i, low⟩

/-- Two marks under one bank are one. -/
theorem mark_mark (record : UsageRecord) (first second : Usage) (bank : Nat) :
    (record.mark first bank).mark second bank = record.mark (first.union second) bank := by
  apply eq_of_bit
  intro i inside
  simp only [bit_mark _ _ _ inside, Usage.has_union]
  split
  · rfl
  · rw [Bool.and_or_distrib_left, Bool.or_assoc]

/-- A mark adds its kinds of use to those on record. -/
theorem usage_mark (record : UsageRecord) (usage : Usage) (bank : Nat) :
    (record.mark usage bank).usage = record.usage.union usage := by
  apply Usage.eq_of_has
  intro i inside
  have below : 40 + i < 48 := by omega
  rw [usage_has _ inside, bit_mark _ _ _ (by omega), bankMask_low below, Usage.has_union,
    usage_has _ inside]
  simp

/-- A destination whose word reaches into the kinds of use would add to them. -/
theorem usage_recordDestination (record : UsageRecord) (destination : Identity) :
    (record.recordDestination destination).usage =
      record.usage.union (UsageRecord.mk destination.word).usage := by
  have kept : ∀ i : Fin 8, (usageMask ||| bankMask).toBitVec.getLsbD (40 + i) = true := by decide
  apply Usage.eq_of_has
  intro i inside
  have here := kept ⟨i, inside⟩
  simp only [Usage.has_union, usage_has _ inside, bit, recordDestination, UInt64.toBitVec_or,
    UInt64.toBitVec_and, BitVec.getLsbD_or, BitVec.getLsbD_and] at here ⊢
  simp [here]

end UsageRecord

/-! ## Tables of notes -/

namespace NoteTable

variable (table : NoteTable) {f g : Note → Note}

/-- A changed table has room for the index that was changed. -/
theorem size_modify (n : Nat) (f : Note → Note) :
    (table.modify n f).notes.size = max table.notes.size (n + 1) := by
  unfold modify padTo
  rw [Array.size_modify]
  split
  · omega
  · rw [Array.size_append, Array.size_replicate]
    omega

/-- A table is told by its size and its notes. -/
theorem eq_of_notes {first second : NoteTable} (size : first.notes.size = second.notes.size)
    (notes : ∀ k, first.note k = second.note k) : first = second := by
  have same : first.notes = second.notes := by
    apply Array.ext size
    intro k before after
    have here := notes k
    simpa [note, before, after] using here
  exact congrArg mk same

/-- Two changes of one note are one change. -/
theorem modify_modify (n : Nat) : (table.modify n f).modify n g = table.modify n (g ∘ f) := by
  apply eq_of_notes
  · simp only [size_modify]
    omega
  · intro k
    simp only [note_modify]
    split <;> rfl

/-- Changes that commute may be made to any two notes in either order. -/
theorem modify_comm (comm : ∀ note, f (g note) = g (f note)) (n k : Nat) :
    (table.modify n f).modify k g = (table.modify k g).modify n f := by
  apply eq_of_notes
  · simp only [size_modify]
    omega
  · intro i
    simp only [note_modify]
    by_cases same : n = k
    · subst same
      split <;> simp [comm]
    · grind

end NoteTable

/-! ## The ledger -/

namespace Ledger

variable (ledger : Ledger)

/-- Two changes of the note of one place are one change. -/
theorem modify_modify (place : Place) (f g : Note → Note) :
    (ledger.modify place f).modify place g = ledger.modify place (g ∘ f) := by
  cases place with
  | interruptEnable | openBus => rfl
  | _ => simp only [modify, NoteTable.modify_modify]

/-- Changes that commute can be made in any order, wherever they reach. -/
theorem modify_comm {f g : Note → Note} (comm : ∀ note, f (g note) = g (f note)) (p q : Place) :
    (ledger.modify p f).modify q g = (ledger.modify q g).modify p f := by
  cases p <;> cases q <;> simp only [modify, NoteTable.modify_comm _ comm, comm]

/-- Places with one home have one note. -/
theorem note_of_home {p q : Place} (same : q.home = p.home) : ledger.note q = ledger.note p := by
  have home : ∀ r : Place, ledger.note r.home = ledger.note r := by
    intro r
    cases r <;> rfl
  rw [← home q, same, home p]

/-- A change of one note leaves the others alone, and the open bus has none. -/
theorem note_modify_cases (p q : Place) (f : Note → Note) :
    (ledger.modify p f).note q = ledger.note q ∨
      (q.home = p.home ∧ (ledger.modify p f).note q = f (ledger.note q)) := by
  by_cases nowhere : p = .openBus
  · rw [nowhere]
    exact .inl rfl
  · rw [note_modify _ _ _ _ nowhere]
    split
    · rename_i same
      rw [ledger.note_of_home same]
      exact .inr ⟨same, rfl⟩
    · exact .inl rfl

/-- A change that keeps origins changes the origin of no place. -/
theorem origin_modify (p q : Place) {f : Note → Note}
    (keeps : ∀ note, (f note).origin = note.origin) :
    ((ledger.modify p f).note q).origin = (ledger.note q).origin := by
  obtain same | ⟨-, changed⟩ := ledger.note_modify_cases p q f
  · rw [same]
  · rw [changed, keeps]

/-- Marking a use changes the origin of no place. -/
theorem origin_mark (p q : Place) (usage : Usage) (bank : Nat) :
    ((ledger.mark p usage bank).note q).origin = (ledger.note q).origin := by
  unfold mark
  apply ledger.origin_modify
  intro note
  rfl

/-- Recording a destination changes the origin of no place. -/
theorem origin_recordDestination (p q : Place) (destination : Identity) :
    ((ledger.recordDestination p destination).note q).origin = (ledger.note q).origin := by
  unfold recordDestination
  apply ledger.origin_modify
  intro note
  rfl

/-- A move that is booked changes the origin of its destination, and no other. -/
theorem origin_link {present : Place → Bool} {p : Place} (source q : Place)
    (here : present p = true) (answers : p ≠ .openBus) :
    ((ledger.link present p source).note q).origin =
      if q.home = p.home then some (ledger.root present source) else (ledger.note q).origin := by
  have set : ((ledger.setOrigin p (ledger.root present source)).note q).origin =
      if q.home = p.home then some (ledger.root present source) else (ledger.note q).origin := by
    unfold setOrigin
    rw [note_modify _ _ _ _ answers]
    split <;> rfl
  unfold link
  simp only [here, if_true]
  split
  · rw [origin_recordDestination]
    exact set
  · exact set

end Ledger

end Handheld
