import Handheld.Proofs.Deeds
import Handheld.Proofs.Records

/-!
# No executed byte is missing from the record

The usage records of a machine tell which bytes were executed. An operation marks its bytes
before anything else happens, at the places that its addresses stand for at that moment. From
then on marks, moves, block copies and bank stamps may all rewrite the record, and none of them
takes a kind of use away.

* `Ledger.Grows` compares the records of two ledgers, and every way to change a ledger grows,
  the booking of moves among them (`grows_link`, `grows_trail`).
* So whatever a machine is led to by its deeds has all kinds of use that were on record before
  (`grows_of_leads`), and its bytes are still there (`keepsUsage_of_leads`).
-/

set_option autoImplicit false

namespace Handheld

namespace Ledger

/-! ## Records that grow -/

/-- No kind of use is missing from a later ledger. -/
def Grows (before after : Ledger) : Prop :=
  ∀ p, (before.note p).record.usage ⊆ (after.note p).record.usage

namespace Grows

variable {before middle after : Ledger}

/-- A ledger has what it has. -/
theorem refl (ledger : Ledger) : Grows ledger ledger := fun _ => Usage.subset_refl _

/-- Equal ledgers have the same on record. -/
theorem of_eq (same : after = before) : Grows before after := by
  rw [same]
  exact refl before

/-- What grows twice over grows. -/
theorem trans (first : Grows before middle) (second : Grows middle after) : Grows before after :=
  fun p => Usage.subset_trans (first p) (second p)

end Grows

variable (ledger : Ledger)

/-- A change that only adds kinds of use makes a ledger grow. -/
theorem grows_modify (p : Place) {f : Note → Note}
    (more : ∀ note, note.record.usage ⊆ (f note).record.usage) :
    Grows ledger (ledger.modify p f) := by
  intro q
  obtain same | ⟨-, changed⟩ := ledger.note_modify_cases p q f
  · rw [same]
    exact Usage.subset_refl _
  · rw [changed]
    exact more _

/-- Marking a use makes a ledger grow. -/
theorem grows_mark (p : Place) (usage : Usage) (bank : Nat) :
    Grows ledger (ledger.mark p usage bank) := by
  apply ledger.grows_modify
  intro note
  rw [UsageRecord.usage_mark]
  exact Usage.subset_union_left _ _

/-- Clearing an origin takes no use off the record. -/
theorem grows_clearOrigin (p : Place) : Grows ledger (ledger.clearOrigin p) :=
  ledger.grows_modify p fun _ => Usage.subset_refl _

/-- Recording a destination takes no use off the record. -/
theorem grows_recordDestination (p : Place) (destination : Identity) :
    Grows ledger (ledger.recordDestination p destination) := by
  apply ledger.grows_modify
  intro note
  rw [UsageRecord.usage_recordDestination]
  exact Usage.subset_union_left _ _

/-- A move that is booked leaves both records as they were, or adds to that of the root. -/
theorem grows_link (present : Place → Bool) (p source : Place) :
    Grows ledger (ledger.link present p source) := by
  have linked : Grows ledger (ledger.setOrigin p (ledger.root present source)) :=
    ledger.grows_modify p fun _ => Usage.subset_refl _
  unfold link
  dsimp only
  split
  · split
    · exact linked.trans (grows_recordDestination _ _ _)
    · exact linked
  · exact .refl ledger

/-- Clearing origins of cartridge RAM takes no use off the record. -/
theorem grows_clearSram (size offset count : Nat) :
    Grows ledger (Hardware.clearSram size offset count ledger) := by
  induction count generalizing ledger offset with
  | zero => exact .refl ledger
  | succ count ih =>
    unfold Hardware.clearSram
    split
    · exact (ledger.grows_clearOrigin _).trans (ih _ _)
    · exact .refl ledger

/-- The moves that a store sets off are booked like any other. -/
theorem grows_trail (hw : Hardware) (place : Place) (value : UInt8) :
    Grows ledger (hw.trail place value ledger) := by
  unfold Hardware.trail
  split
  · induction hw.moves _ value generalizing ledger with
    | nil => exact .refl ledger
    | cons move moves ih => exact (ledger.grows_link _ _ _).trans (ih _)
  · split
    · exact ledger.grows_clearSram _ _ _
    · exact .refl ledger
  · exact .refl ledger

end Ledger

namespace System

/-- Marking a use only adds to the record. -/
theorem grows_mark (s : System Hardware) (place : Place) (usage : Usage) :
    s.ledger.Grows (s.mark place usage).ledger := by
  rw [mark_eq]
  dsimp only
  split
  · exact s.ledger.grows_mark _ _ _
  · exact .refl _

/-- A write only adds to the record. -/
theorem grows_write (s : System Hardware) (place : Place) (value : UInt8) :
    s.ledger.Grows (s.write place value).ledger := by
  have stored := s.ledger.grows_trail s.bus place value
  rw [← store_ledger_eq] at stored
  unfold write
  rw [clearOrigin_eq]
  dsimp only
  split
  · exact stored.trans (Ledger.grows_clearOrigin _ _)
  · exact stored

/-- A move only adds to the record. -/
theorem grows_move (s : System Hardware) (destination source : Place) :
    s.ledger.Grows (s.move destination source).ledger := by
  have stored := s.ledger.grows_trail s.bus destination (s.load source)
  rw [← store_ledger_eq] at stored
  exact stored.trans (Ledger.grows_link _ _ _ _)

/-- Work only adds to the record. -/
theorem grows_of_works {s t : System Hardware} {n : Nat} {deeds : List Deed}
    (works : Works s n deeds t) : s.ledger.Grows t.ledger := by
  induction works with
  | aside _ _ _ ledger => exact .of_eq ledger
  | mark s place usage => exact s.grows_mark place usage
  | flags s flags => exact .refl _
  | write s place value => exact s.grows_write place value
  | move s destination source => exact s.grows_move destination source
  | trans _ _ first second => exact first.trans second

/-- Whatever comes about by deeds only adds to the record. -/
theorem grows_of_leads {s t : System Hardware} {deeds : List Deed} (leads : Leads s deeds t) :
    s.ledger.Grows t.ledger := by
  induction leads with
  | works works => exact grows_of_works works
  | aside ledger => exact .of_eq ledger
  | trans _ _ first second => exact first.trans second

/-! ## Bytes that are marked -/

/-- A byte is on record with the given kinds of use. -/
def OnRecord (s : System Hardware) (place : Place) (kinds : Usage) : Prop :=
  kinds ⊆ (s.ledger.note place).record.usage

/-- A use that is marked is on record, if there is a byte. -/
theorem onRecord_mark (s : System Hardware) {place : Place} (usage : Usage)
    (here : present s.bus place = true) : (s.mark place usage).OnRecord place usage := by
  have answers : place ≠ .openBus := by
    rintro rfl
    contradiction
  unfold OnRecord
  rw [mark_eq, if_pos here]
  show usage ⊆ (((s.ledger.modify place _).note place).record.usage)
  rw [Ledger.note_modify _ _ _ _ answers, if_pos rfl, UsageRecord.usage_mark]
  exact Usage.subset_union_right _ _

/-- What is on record stays there while the ledger grows. -/
theorem OnRecord.later {s t : System Hardware} {place : Place} {kinds : Usage}
    (h : s.OnRecord place kinds) (grows : s.ledger.Grows t.ledger) : t.OnRecord place kinds :=
  Usage.subset_trans h (grows place)

/-- How the byte at a distance from the opcode is marked. -/
def kindAt (i : Nat) : Usage := if i = 0 then .instruction else Usage.instruction.union .data

/-- The bytes of an instruction are on record once its operands are marked. -/
theorem onRecord_markOperands {s : System Hardware} {address : UInt16}
    (opcode : present s.bus (s.resolve address) = true → s.OnRecord (s.resolve address) (kindAt 0))
    (count : Nat) {i : Nat} (inside : i ≤ count)
    (here : present s.bus (s.resolve (address + UInt16.ofNat i)) = true) :
    (s.markOperands address count).OnRecord (s.resolve (address + UInt16.ofNat i)) (kindAt i) := by
  induction count with
  | zero =>
    obtain rfl : i = 0 := Nat.le_zero.mp inside
    have first : address + UInt16.ofNat 0 = address := UInt16.add_zero address
    rw [first] at here ⊢
    exact opcode here
  | succ count ih =>
    obtain ⟨-, bus, -⟩ := s.markOperands_values address count
    unfold markOperands
    obtain last | before := Nat.eq_or_lt_of_le inside
    · have kind : kindAt i = Usage.instruction.union .data := if_neg (by omega)
      have same : (s.markOperands address count).resolve (address + UInt16.ofNat (count + 1)) =
          s.resolve (address + UInt16.ofNat i) := by
        rw [last, resolve, bus]
        rfl
      dsimp only
      rw [same, kind]
      apply onRecord_mark
      rw [bus]
      exact here
    · exact (ih (Nat.lt_succ_iff.mp before)).later (grows_mark _ _ _)

/-- The bytes of an instruction are on record once it is marked. -/
theorem onRecord_markInstruction (s : System Hardware) (address : UInt16) {length : UInt8} {i : Nat}
    (inside : i < length.toNat)
    (here : present s.bus (s.resolve (address + UInt16.ofNat i)) = true) :
    (s.markInstruction address length).OnRecord (s.resolve (address + UInt16.ofNat i))
      (kindAt i) := by
  let marked := s.mark (s.resolve address) .instruction
  have bus : marked.bus = s.bus := s.mark_bus _ _
  have same : ∀ a, marked.resolve a = s.resolve a := by
    intro a
    rw [resolve, bus]
    rfl
  have opcode : present marked.bus (marked.resolve address) = true →
      marked.OnRecord (marked.resolve address) (kindAt 0) := by
    intro kept
    rw [same] at kept ⊢
    rw [bus] at kept
    exact s.onRecord_mark .instruction kept
  rw [← same] at here ⊢
  rw [← bus] at here
  exact onRecord_markOperands opcode _ (by omega) here

/-- And they stay on record while it takes effect. -/
theorem onRecord_execute (s : System Hardware) (operation : Operation) {i : Nat}
    (inside : i < operation.length.toNat)
    (here : present s.bus (s.resolve (s.cpu.pc + UInt16.ofNat i)) = true) :
    (s.execute operation).OnRecord (s.resolve (s.cpu.pc + UInt16.ofNat i)) (kindAt i) := by
  obtain ⟨_, -, works⟩ := Works.executeMarked s operation
  exact (s.onRecord_markInstruction s.cpu.pc inside here).later (grows_of_works works)

end System

namespace Machine

open Handheld.System (Leads kindAt grows_of_leads)

/-! ## Cells -/

/-- Every cell of a machine is a cell of a later one, with all kinds of use that it had. -/
def KeepsUsage (m later : Machine) : Prop :=
  ∀ place cell, m.cell? place = some cell → ∃ grown, later.cell? place = some grown ∧
    cell.note.record.usage ⊆ grown.note.record.usage

/-- A machine that comes about by deeds keeps every use on record. -/
theorem keepsUsage_of_leads {m later : Machine} {deeds : List Deed}
    (leads : Leads m.toSystem deeds later.toSystem) : m.KeepsUsage later := by
  intro place cell found
  have here : System.present m.bus place = true := by
    rw [← cell?_isSome, found]
    rfl
  have kept := leads.holds.present here
  rw [← cell?_isSome] at kept
  obtain ⟨grown, shown⟩ := Option.isSome_iff_exists.mp kept
  refine ⟨grown, shown, ?_⟩
  rw [cell?_eq found, cell?_eq shown]
  exact grows_of_leads leads place

/-! ## The bytes of an instruction -/

/-- The bytes from which a step has decoded an instruction are on record when it is done. -/
theorem onRecord_step {m : Machine} {operation : Operation} (executes : m.executed = some operation)
    {i : Nat} (inside : i < operation.length.toNat) :
    let s := m.serviceInterrupts.1
    let place := s.resolve (s.cpu.pc + UInt16.ofNat i)
    System.present s.bus place = true → m.step.1.toSystem.OnRecord place (kindAt i) := by
  intro s place here
  let t := (s.decode s.cpu.pc).1
  obtain ⟨-, acts⟩ := acted_of_executed executes
  have bus : t.bus = s.bus := s.decode_bus _
  have same : t.resolve (t.cpu.pc + UInt16.ofNat i) = place := by
    rw [s.decode_cpu, System.resolve, bus]
    rfl
  have executed := t.onRecord_execute operation inside
  rw [same, bus] at executed
  have marked := executed here
  rw [step_of_acted acts]
  exact marked.later (grows_of_leads (leads_finishStep _ _ _))

/-- No executed byte is missing from the record and no mark is lost. In a session without resets
and exchanges of the cartridge every cell keeps the kinds of use it has. And when a step
executes an operation, each byte from which it was decoded, at the place that its address stood
for after the check for interrupts, is a cell in every later state of such a session and on
record as an instruction, the bytes after the first also as data. A run and a frame are steps. -/
theorem executed_bytes_stay_on_record :
    (∀ (m : Machine) (requests : List Request),
      (∀ request ∈ requests, request.continues = true) →
        m.KeepsUsage (m.session requests).1) ∧
    (∀ (m : Machine) (operation : Operation) (requests : List Request),
      m.executed = some operation → (∀ request ∈ requests, request.continues = true) →
        let s := m.serviceInterrupts.1
        ∀ i < operation.length.toNat,
          let place := s.resolve (s.cpu.pc + UInt16.ofNat i)
          System.present s.bus place = true →
            ∃ cell, (m.step.1.session requests).1.cell? place = some cell ∧
              kindAt i ⊆ cell.note.record.usage) ∧
    ∀ m : Machine,
      (∀ limit, ∃ k, (m.run limit).1 = (m.session (List.replicate k .step)).1) ∧
        ∃ k, m.stepFrame.1 = (m.session (List.replicate k .step)).1 := by
  refine ⟨?_, ?_, ?_⟩
  · intro m requests continues
    obtain ⟨_, leads⟩ := leads_session continues
    exact keepsUsage_of_leads leads
  · intro m operation requests executes continues s i inside place here
    obtain ⟨_, leads⟩ := leads_session (m := m.step.1) continues
    have kept := (m.leads_instruction.trans leads).holds.present here
    have marked := (onRecord_step executes inside here).later (grows_of_leads leads)
    rw [← cell?_isSome] at kept
    obtain ⟨cell, shown⟩ := Option.isSome_iff_exists.mp kept
    refine ⟨cell, shown, ?_⟩
    rw [cell?_eq shown]
    exact marked
  · intro m
    refine ⟨fun limit => ?_, ?_⟩
    · obtain ⟨k, steps⟩ := m.run_is_steps limit
      exact ⟨k, steps.trans (m.session_steps k).symm⟩
    · obtain ⟨k, steps⟩ := m.stepFrame_is_steps
      exact ⟨k, steps.trans (m.session_steps k).symm⟩

/-- A machine whose boot image loads a byte into the accumulator. -/
def loading : Machine := (assemble .empty #[0x3E, 0x42]).reset

/-- The byte that was loaded is an operand in the boot image. It is on record as such however the
machine goes on, and a cell that was there at the start has not lost a mark. -/
theorem executed_bytes_stay_on_record_of_loading :
    let operation : Operation :=
      { action := .load8 (.register .a) (.boot 1), length := 2, cycles := 8 }
    let requests : List Request :=
      [.run (some 1000), .write 0xC000 0x05, .decode 0x0000, .stepFrame]
    loading.executed = some operation ∧ (∀ request ∈ requests, request.continues = true) ∧
      loading.KeepsUsage (loading.session requests).1 ∧
      ∃ cell, (loading.step.1.session requests).1.cell? (.boot 1) = some cell ∧
        Usage.instruction.union .data ⊆ cell.note.record.usage := by
  intro operation requests
  have executes : loading.executed = some operation := by decide +kernel
  have continues : ∀ request ∈ requests, request.continues = true := by
    simp [requests, Request.continues]
  obtain ⟨grow, marked, -⟩ := executed_bytes_stay_on_record
  have operand := marked loading operation requests executes continues 1 (by decide)
  have place : loading.serviceInterrupts.1.resolve
      (loading.serviceInterrupts.1.cpu.pc + UInt16.ofNat 1) = .boot 1 := by
    decide +kernel
  have here : System.present loading.serviceInterrupts.1.bus (.boot 1) = true := by
    decide +kernel
  rw [place] at operand
  exact ⟨executes, continues, grow loading requests continues, operand here⟩

end Machine

end Handheld
