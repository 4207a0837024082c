import Handheld.System.Execute
import Handheld.System.Interrupts

/-!
# What the functions of a processor at work change

For each function through which an instruction touches bytes: what it leaves of the
processor, of the address space and of the journal. Booking functions change the
ledger alone; a change of the processor leaves all else; only a store reaches the
address space. What a store changes of the processor are its registers, never the
rest, its `control`. With these facts as rewriting rules the functions need not be
opened again.
-/

set_option autoImplicit false

namespace Handheld

/-- The processor apart from its registers. -/
def Cpu.control (cpu : Cpu) : Cpu := { cpu with registers := {} }

namespace System

variable {β : Type} [AddressSpace β]

/-! ## Booking -/

/-- Clearing an origin changes the ledger alone, and only for a place that is there. -/
theorem clearOrigin_eq (s : System β) (place : Place) :
    s.clearOrigin place =
      { s with
        ledger := if present s.bus place then s.ledger.clearOrigin place else s.ledger } := by
  obtain ⟨cpu, bus, ledger, journal⟩ := s
  simp only [clearOrigin]
  split <;> rfl

/-- Marking a use changes the ledger alone, and only for a place that is there. -/
theorem mark_eq (s : System β) (place : Place) (usage : Usage) :
    s.mark place usage =
      { s with
        ledger :=
          if present s.bus place then s.ledger.mark place usage (AddressSpace.romBank s.bus)
          else s.ledger } := by
  obtain ⟨cpu, bus, ledger, journal⟩ := s
  simp only [mark]
  split <;> rfl

/-- Clearing an origin leaves the processor alone. -/
@[simp] theorem clearOrigin_cpu (s : System β) (place : Place) :
    (s.clearOrigin place).cpu = s.cpu := by
  rw [clearOrigin_eq]

/-- Clearing an origin leaves the address space alone. -/
@[simp] theorem clearOrigin_bus (s : System β) (place : Place) :
    (s.clearOrigin place).bus = s.bus := by
  rw [clearOrigin_eq]

/-- Clearing an origin leaves the journal alone. -/
@[simp] theorem clearOrigin_journal (s : System β) (place : Place) :
    (s.clearOrigin place).journal = s.journal := by
  rw [clearOrigin_eq]

/-- Marking a use leaves the processor alone. -/
@[simp] theorem mark_cpu (s : System β) (place : Place) (usage : Usage) :
    (s.mark place usage).cpu = s.cpu := by
  rw [mark_eq]

/-- Marking a use leaves the address space alone. -/
@[simp] theorem mark_bus (s : System β) (place : Place) (usage : Usage) :
    (s.mark place usage).bus = s.bus := by
  rw [mark_eq]

/-- Marking a use leaves the journal alone. -/
@[simp] theorem mark_journal (s : System β) (place : Place) (usage : Usage) :
    (s.mark place usage).journal = s.journal := by
  rw [mark_eq]

/-- Marking the use of an origin leaves the processor alone. -/
@[simp] theorem markOrigin_cpu (s : System β) (place : Place) (usage : Usage) :
    (s.markOrigin place usage).cpu = s.cpu := by
  unfold markOrigin; split <;> simp

/-- Marking the use of an origin leaves the address space alone. -/
@[simp] theorem markOrigin_bus (s : System β) (place : Place) (usage : Usage) :
    (s.markOrigin place usage).bus = s.bus := by
  unfold markOrigin; split <;> simp

/-- Marking the use of an origin leaves the journal alone. -/
@[simp] theorem markOrigin_journal (s : System β) (place : Place) (usage : Usage) :
    (s.markOrigin place usage).journal = s.journal := by
  unfold markOrigin; split <;> simp

/-- A remark of the decoder leaves the processor alone. -/
@[simp] theorem applyMark_cpu (s : System β) (mark : Mark) : (s.applyMark mark).cpu = s.cpu := by
  cases mark <;> simp [applyMark]

/-- A remark of the decoder leaves the address space alone. -/
@[simp] theorem applyMark_bus (s : System β) (mark : Mark) : (s.applyMark mark).bus = s.bus := by
  cases mark <;> simp [applyMark]

/-- A remark of the decoder leaves the journal alone. -/
@[simp] theorem applyMark_journal (s : System β) (mark : Mark) :
    (s.applyMark mark).journal = s.journal := by
  cases mark <;> simp [applyMark]

/-- Remarks of the decoder change the ledger alone. -/
theorem applyMarks_values (s : System β) (marks : List Mark) :
    (marks.foldl applyMark s).cpu = s.cpu ∧ (marks.foldl applyMark s).bus = s.bus ∧
      (marks.foldl applyMark s).journal = s.journal := by
  induction marks generalizing s with
  | nil => exact ⟨rfl, rfl, rfl⟩
  | cons mark marks ih => simpa using ih (s.applyMark mark)

/-- Decoding leaves the processor alone. -/
@[simp] theorem decode_cpu (s : System β) (address : UInt16) : (s.decode address).1.cpu = s.cpu :=
  (s.applyMarks_values _).1

/-- Decoding leaves the address space alone. -/
@[simp] theorem decode_bus (s : System β) (address : UInt16) : (s.decode address).1.bus = s.bus :=
  (s.applyMarks_values _).2.1

/-- Decoding leaves the journal alone. -/
@[simp] theorem decode_journal (s : System β) (address : UInt16) :
    (s.decode address).1.journal = s.journal :=
  (s.applyMarks_values _).2.2

/-- What is decoded depends on the registers and the address space alone. -/
theorem decode_operation (s : System β) (address : UInt16) :
    (s.decode address).2 = (Handheld.decode s.cpu.registers s.bus address).operation := rfl

/-- Marking operands changes the ledger alone. -/
theorem markOperands_values (s : System β) (address : UInt16) (count : Nat) :
    (s.markOperands address count).cpu = s.cpu ∧ (s.markOperands address count).bus = s.bus ∧
      (s.markOperands address count).journal = s.journal := by
  induction count with
  | zero => exact ⟨rfl, rfl, rfl⟩
  | succ count ih => simpa [markOperands] using ih

/-- Marking an instruction leaves the processor alone. -/
@[simp] theorem markInstruction_cpu (s : System β) (address : UInt16) (length : UInt8) :
    (s.markInstruction address length).cpu = s.cpu := by
  simp [markInstruction, markOperands_values]

/-- Marking an instruction leaves the address space alone. -/
@[simp] theorem markInstruction_bus (s : System β) (address : UInt16) (length : UInt8) :
    (s.markInstruction address length).bus = s.bus := by
  simp [markInstruction, markOperands_values]

/-- Marking an instruction leaves the journal alone. -/
@[simp] theorem markInstruction_journal (s : System β) (address : UInt16) (length : UInt8) :
    (s.markInstruction address length).journal = s.journal := by
  simp [markInstruction, markOperands_values]

/-! ## Changes of the processor -/

omit [AddressSpace β] in
/-- Setting a register changes the registers of the processor. -/
@[simp] theorem setRegister_cpu (s : System β) (r : Register) (value : UInt8) :
    (s.setRegister r value).cpu = { s.cpu with registers := s.cpu.registers.set r value } := rfl

omit [AddressSpace β] in
/-- Setting a register leaves the address space alone. -/
@[simp] theorem setRegister_bus (s : System β) (r : Register) (value : UInt8) :
    (s.setRegister r value).bus = s.bus := rfl

omit [AddressSpace β] in
/-- Setting a register leaves the journal alone. -/
@[simp] theorem setRegister_journal (s : System β) (r : Register) (value : UInt8) :
    (s.setRegister r value).journal = s.journal := rfl

omit [AddressSpace β] in
/-- A jump changes the program counter of the processor. -/
@[simp] theorem jumpTo_cpu (s : System β) (address : UInt16) :
    (s.jumpTo address).cpu = { s.cpu with pc := address } := rfl

omit [AddressSpace β] in
/-- A jump leaves the address space alone. -/
@[simp] theorem jumpTo_bus (s : System β) (address : UInt16) :
    (s.jumpTo address).bus = s.bus := rfl

omit [AddressSpace β] in
/-- Spending cycles changes the cycle counter of the processor. -/
@[simp] theorem spend_cpu (s : System β) (cycles : UInt64) :
    (s.spend cycles).cpu = { s.cpu with cycles := s.cpu.cycles + cycles } := rfl

omit [AddressSpace β] in
/-- Spending cycles leaves the address space alone. -/
@[simp] theorem spend_bus (s : System β) (cycles : UInt64) : (s.spend cycles).bus = s.bus := rfl

omit [AddressSpace β] in
/-- Switching interrupts on or off changes the master enable of the processor. -/
@[simp] theorem setInterrupts_cpu (s : System β) (enabled : Bool) :
    (s.setInterrupts enabled).cpu = { s.cpu with interruptsEnabled := enabled } := rfl

omit [AddressSpace β] in
/-- Switching interrupts on or off leaves the address space alone. -/
@[simp] theorem setInterrupts_bus (s : System β) (enabled : Bool) :
    (s.setInterrupts enabled).bus = s.bus := rfl

/-! ## Loads and stores -/

/-- Outside the registers the address space answers a load. -/
theorem load_place (s : System β) {place : Place} (outside : ∀ r, place ≠ .register r) :
    s.load place = AddressSpace.load s.bus place := by
  cases place with
  | register r => exact absurd rfl (outside r)
  | _ => rfl

/-- A store to a register sets it. -/
@[simp] theorem store_register (s : System β) (r : Register) (value : UInt8) :
    s.store (.register r) value = s.setRegister r value := rfl

/-- A store outside the registers is a store of the address space, with the moves it
sets off booked and the events it brings about reported. -/
theorem store_place (s : System β) {place : Place} (outside : ∀ r, place ≠ .register r)
    (value : UInt8) :
    s.store place value =
      { cpu := s.cpu
        bus := AddressSpace.store s.bus place value
        ledger := AddressSpace.trail s.bus place value s.ledger
        journal := s.journal ++ (AddressSpace.announce s.bus place value).toArray } := by
  cases place with
  | register r => exact absurd rfl (outside r)
  | _ => simp only [store, List.foldl_push_eq_append']

/-- A write changes the processor as its store does. -/
@[simp] theorem write_cpu (s : System β) (place : Place) (value : UInt8) :
    (s.write place value).cpu = (s.store place value).cpu :=
  clearOrigin_cpu ..

/-- A write changes the address space as its store does. -/
@[simp] theorem write_bus (s : System β) (place : Place) (value : UInt8) :
    (s.write place value).bus = (s.store place value).bus :=
  clearOrigin_bus ..

/-- A write changes the journal as its store does. -/
@[simp] theorem write_journal (s : System β) (place : Place) (value : UInt8) :
    (s.write place value).journal = (s.store place value).journal :=
  clearOrigin_journal ..

/-- A move changes the processor as a store of the byte does. -/
@[simp] theorem move_cpu (s : System β) (destination source : Place) :
    (s.move destination source).cpu = (s.store destination (s.load source)).cpu := rfl

/-- A move changes the address space as a store of the byte does. -/
@[simp] theorem move_bus (s : System β) (destination source : Place) :
    (s.move destination source).bus = (s.store destination (s.load source)).bus := rfl

/-- A move changes the journal as a store of the byte does. -/
@[simp] theorem move_journal (s : System β) (destination source : Place) :
    (s.move destination source).journal = (s.store destination (s.load source)).journal := rfl

/-- A store changes no more of the processor than its registers. -/
@[simp] theorem store_control (s : System β) (place : Place) (value : UInt8) :
    (s.store place value).cpu.control = s.cpu.control := by
  cases place <;> rfl

/-- Writing a register pair changes no more of the processor than its registers. -/
@[simp] theorem writePair_control (s : System β) (pair : RegisterPair) (value : UInt16) :
    (s.writePair pair value).cpu.control = s.cpu.control := by
  simp [writePair, Cpu.control]

/-- A push changes no more of the processor than its registers. -/
@[simp] theorem push_control (s : System β) (source : PlacePair) :
    (s.push source).cpu.control = s.cpu.control := by
  simp [push]

/-- Pushing the program counter changes no more of the processor than its registers. -/
@[simp] theorem pushPc_control (s : System β) : s.pushPc.cpu.control = s.cpu.control := by
  simp [pushPc]

/-! ## Execution -/

/-- The processor at the point where an operation takes effect: it has moved past the operation,
and the devices know the time. -/
def ready (s : System β) (operation : Operation) : System β :=
  (s.markInstruction s.cpu.pc operation.length).advance operation

/-- An operation that leaves HL alone is what its action does to the processor made ready. -/
theorem execute_of_plain (s : System β) {operation : Operation} (plain : operation.hlStep = 0) :
    s.execute operation = (s.ready operation).act operation.action := by
  unfold execute stepHl
  rw [plain]
  rfl

/-- Before an operation acts, its length and its cycles have been counted. -/
theorem ready_cpu (s : System β) (operation : Operation) :
    (s.ready operation).cpu =
      { s.cpu with
        pc := s.cpu.pc + operation.length.toUInt16
        cycles := s.cpu.cycles + operation.cycles.toUInt64 } := by
  show ({ (s.markInstruction _ _).cpu with
    pc := (s.markInstruction _ _).cpu.pc + _
    cycles := (s.markInstruction _ _).cpu.cycles + _ } : Cpu) = _
  rw [markInstruction_cpu]

/-- Before an operation acts, the address space has been told of its cycles. -/
theorem ready_bus (s : System β) (operation : Operation) :
    (s.ready operation).bus =
      AddressSpace.sync s.bus (s.cpu.cycles + operation.cycles.toUInt64) := by
  show AddressSpace.sync (s.markInstruction _ _).bus ((s.markInstruction _ _).cpu.cycles + _) = _
  rw [markInstruction_bus, markInstruction_cpu]

end System

end Handheld
