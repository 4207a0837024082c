import Handheld.Machine
import Handheld.Proofs.Hardware.Resolve

/-!
# Writes from outside

Whoever holds a machine can write to its address space. What such a write reaches depends
on the bank registers, which writes change in turn, so the last write to a byte cannot be
told from the addresses alone. `lastWritten` looks every address up in the state that the
writes before it have left, and `shown_foldl` reduces what a memory shows after any number
of writes to what a single one does.
-/

set_option autoImplicit false

namespace Handheld

/-- A byte and the address that it is written to. -/
structure BusWrite where
  address : UInt16
  value : UInt8
  deriving DecidableEq

/-! ## The last write to a cell -/

section LastWrite

variable {σ κ τ : Type} [DecidableEq κ]

/-- The byte last written to a cell, none if there was no write to it. Where a write goes is
looked up in a state that goes on with every write. -/
def lastWritten (next : σ → BusWrite → σ) (find : σ → UInt16 → Option κ) (cell : κ) :
    σ → List BusWrite → Option UInt8
  | _, [] => none
  | s, write :: later =>
    match lastWritten next find cell (next s write) later with
    | some value => some value
    | none => if find s write.address = some cell then some write.value else none

variable {next : σ → BusWrite → σ} {find : σ → UInt16 → Option κ} {act : τ → BusWrite → τ}
  {Tracks : σ → τ → Prop} {Allowed : BusWrite → Prop}

/-- If one write puts a byte into the cell found for its address and into no other, then after
any number of them a cell shows the byte last written to it, as it is kept there, and what it
showed at first if there was none. -/
theorem shown_foldl (shown : τ → κ → UInt8) (keep : UInt8 → UInt8)
    (each : ∀ {s t} write, Tracks s t → Allowed write → Tracks (next s write) (act t write) ∧
      ∀ cell, shown (act t write) cell =
        if find s write.address = some cell then keep write.value else shown t cell)
    (writes : List BusWrite) (allowed : ∀ write ∈ writes, Allowed write) {s : σ} {t : τ}
    (tracks : Tracks s t) :
    Tracks (writes.foldl next s) (writes.foldl act t) ∧
      ∀ cell, shown (writes.foldl act t) cell =
        ((lastWritten next find cell s writes).map keep).getD (shown t cell) := by
  induction writes generalizing s t with
  | nil => exact ⟨tracks, fun _ => rfl⟩
  | cons write later ih =>
    obtain ⟨still, put⟩ := each write tracks (allowed write List.mem_cons_self)
    obtain ⟨final, last⟩ := ih (fun w mem => allowed w (List.mem_cons_of_mem _ mem)) still
    refine ⟨final, ?_⟩
    intro cell
    rw [List.foldl_cons, last cell, put cell, lastWritten]
    cases lastWritten next find cell (next s write) later with
    | some value => rfl
    | none =>
      by_cases reached : find s write.address = some cell
      · simp [reached]
      · simp [reached]

end LastWrite

/-! ## Writes to a machine -/

/-- A write as the hardware sees it. -/
def Hardware.take (hw : Hardware) (write : BusWrite) : Hardware :=
  hw.store (hw.resolve write.address) write.value

namespace Machine

/-- The machine after writes from outside. -/
def writeAll (m : Machine) (writes : List BusWrite) : Machine :=
  writes.foldl (fun m write => m.writeAt write.address write.value) m

/-- A write of a machine reaches its bus. -/
theorem writeAt_bus (m : Machine) (write : BusWrite) :
    (m.writeAt write.address write.value).bus = m.bus.take write := by
  have outside : ∀ r, m.resolve write.address ≠ .register r :=
    m.bus.resolve_ne_register write.address
  have written := m.toSystem.write_bus (m.resolve write.address) write.value
  rw [m.toSystem.store_place outside] at written
  exact written

/-- A list of writes of a machine reaches its bus in order. -/
theorem writeAll_bus (m : Machine) (writes : List BusWrite) :
    (m.writeAll writes).bus = writes.foldl Hardware.take m.bus := by
  induction writes generalizing m with
  | nil => rfl
  | cons write later ih =>
    have first := m.writeAt_bus write
    rw [List.foldl_cons, ← first]
    exact ih _

end Machine

end Handheld
