import Handheld.Proofs.Hardware.CatchUp
import Handheld.Proofs.Hardware.Stores
import Handheld.Proofs.Invariance

/-!
# What a machine does to bytes

A processor does the deeds of its instructions. A machine adds the check for interrupts, the
devices that catch up, and what is asked of it from outside, and none of these is a deed:
they leave the ledger alone, and the memories that are fixed, the boot image and the ROM. So
a request comes to a list of deeds, `deedsOf`, with other things between them, and `Leads`
says that one state comes from another in this way. A run and a frame are rows of steps.

Which places hold a byte depends on the boot image, the ROM and the size of the cartridge RAM.
A session that neither starts anew nor exchanges the cartridge keeps every place.
-/

set_option autoImplicit false

namespace Handheld

/-- The places of bytes that no store changes. -/
def Place.isFixed : Place → Bool
  | .rom _ _ | .boot _ => true
  | _ => false

/-- Whether a request is a row of steps. -/
def Request.isRow : Request → Bool
  | .run _ | .stepFrame => true
  | _ => false

/-- Whether a request leaves the cartridge inserted and the machine running. -/
def Request.continues : Request → Bool
  | .reset | .swap _ _ => false
  | _ => true

namespace Hardware

/-! ## Which places hold a byte -/

/-- No store changes the ROM. -/
theorem store_rom (hw : Hardware) (place : Place) (value : UInt8) :
    (hw.store place value).cartridge.rom = hw.cartridge.rom := by
  rw [store_cartridge]
  cases place with
  | rom offset address =>
    show (Cartridge.obey _ (hw.cartridge.controller.command address value)).rom = _
    unfold Cartridge.obey
    split <;> rfl
  | _ => rfl

/-- Overwriting leaves an array as long as it is. -/
theorem size_overwrite (target : Array UInt8) (offset : Nat) (bytes : List UInt8) :
    (Cartridge.overwrite target offset bytes).size = target.size := by
  induction bytes generalizing target offset with
  | nil => rfl
  | cons value bytes ih => rw [Cartridge.overwrite, ih, Array.size_setIfInBounds]

/-- A store leaves the RAM of a cartridge as large as it is. -/
theorem size_sram_store (cartridge : Cartridge) (place : Place) (value : UInt8) :
    (cartridge.store place value).sram.size = cartridge.sram.size := by
  cases place with
  | rom offset address =>
    show (Cartridge.obey _ (cartridge.controller.command address value)).sram.size = _
    unfold Cartridge.obey
    split
    · exact size_overwrite _ _ _
    · rfl
  | sram n => exact Array.size_setIfInBounds
  | _ => rfl

/-- A store leaves the RAM on the bus as large as it is. -/
theorem store_sram_size (hw : Hardware) (place : Place) (value : UInt8) :
    (hw.store place value).cartridge.sram.size = hw.cartridge.sram.size := by
  rw [store_cartridge, size_sram_store]

/-- The fixed memories of one state are those of another, and its cartridge RAM is as large at
least. -/
structure Holds (hw next : Hardware) : Prop where
  boot : next.memories.boot = hw.memories.boot
  rom : next.cartridge.rom = hw.cartridge.rom
  sram : hw.cartridge.sram.size ≤ next.cartridge.sram.size

/-- Whatever becomes of the hardware by stores and in between, the fixed memories are held. -/
theorem lasting_holds (hw : Hardware) : Lasting (Holds hw) where
  store := by
    intro next h place value
    refine ⟨?_, ?_, ?_⟩
    · exact ((next.written_store place value).boot).trans h.boot
    · exact (next.store_rom place value).trans h.rom
    · rw [store_sram_size]
      exact h.sram
  sync := by
    intro next h now
    exact ⟨h.boot, h.rom, h.sram⟩
  requests := by
    intro next h value
    exact ⟨h.boot, h.rom, h.sram⟩
  speed := by
    intro next h value
    exact ⟨h.boot, h.rom, h.sram⟩
  update := by
    intro next h now speed
    have caughtUp := next.caughtUp_update now speed
    refine ⟨caughtUp.boot.trans h.boot, ?_, ?_⟩
    · rw [caughtUp.cartridge]
      exact h.rom
    · rw [caughtUp.cartridge]
      exact h.sram
  hear := by
    intro next h
    exact ⟨h.boot, h.rom, h.sram⟩

/-- A state holds its own fixed memories. -/
theorem Holds.refl (hw : Hardware) : Holds hw hw := ⟨rfl, rfl, Nat.le_refl _⟩

/-- Fixed memories that are held twice over are held. -/
theorem Holds.trans {hw next last : Hardware} (first : Holds hw next) (second : Holds next last) :
    Holds hw last where
  boot := second.boot.trans first.boot
  rom := second.rom.trans first.rom
  sram := Nat.le_trans first.sram second.sram

/-- Vectors of one size have the same indices. -/
theorem isSome_of_size {size n : Nat} (first second : Vector UInt8 size)
    (here : first[n]?.isSome = true) : second[n]?.isSome = true := by
  simpa using here

/-- A byte that was there is still there. -/
theorem Holds.present {hw next : Hardware} (h : Holds hw next) {place : Place}
    (here : System.present hw place = true) : System.present next place = true := by
  cases place with
  | boot n =>
    show (next.memories.boot[n]?).isSome = true
    rw [h.boot]
    exact here
  | rom offset address =>
    show (next.cartridge.rom.bytes[offset]?).isSome = true
    rw [h.rom]
    exact here
  | sram n =>
    have byte : (hw.cartridge.sram[n]?).isSome = true := here
    have inside : n < hw.cartridge.sram.size := by simpa using byte
    show (next.cartridge.sram[n]?).isSome = true
    simpa using Nat.lt_of_lt_of_le inside h.sram
  -- The other memories have one size.
  | rtc n => exact isSome_of_size hw.cartridge.clock next.cartridge.clock here
  | vram n => exact isSome_of_size hw.memories.vram next.memories.vram here
  | wram n => exact isSome_of_size hw.memories.wram next.memories.wram here
  | oam n => exact isSome_of_size hw.memories.oam next.memories.oam here
  | io n => exact isSome_of_size hw.memories.io next.memories.io here
  | hram n => exact isSome_of_size hw.memories.hram next.memories.hram here
  | _ => exact here

end Hardware

namespace System

/-! ## Deeds and what comes between them -/

/-- What a store adds to the ledger is the trail of its bus. -/
theorem store_ledger_eq (s : System Hardware) (place : Place) (value : UInt8) :
    (s.store place value).ledger = s.bus.trail place value s.ledger := by
  cases place <;> rfl

/-- By these deeds one state comes from another, whatever else has happened on the way that
leaves the ledger and the fixed memories alone. -/
inductive Leads : System Hardware → List Deed → System Hardware → Prop where
  | works {s t : System Hardware} {n : Nat} {deeds : List Deed} (works : Works s n deeds t) :
    Leads s deeds t
  | aside {s t : System Hardware} (ledger : t.ledger = s.ledger)
    (holds : Hardware.Holds s.bus t.bus) : Leads s [] t
  | trans {s t u : System Hardware} {first second : List Deed} (before : Leads s first t)
    (after : Leads t second u) : Leads s (first ++ second) u

/-- A state comes from itself by no deeds. -/
theorem Leads.refl (s : System Hardware) : Leads s [] s := .aside rfl (.refl s.bus)

/-- The processor reaches the memories by stores, and no store changes what is fixed. -/
theorem Leads.holds {s t : System Hardware} {deeds : List Deed} (leads : Leads s deeds t) :
    Hardware.Holds s.bus t.bus := by
  induction leads with
  | @works s t n deeds works =>
    exact (Hardware.lasting_holds s.bus).proceeds works.proceeds (.refl s.bus)
  | aside _ holds => exact holds
  | trans _ _ first second => exact first.trans second

/-- The deeds of a check for interrupts: the program counter is put on the stack. -/
def deedsOfCheck (s : System Hardware) : List Deed :=
  match s.dispatched with
  | some source => (s.wake.withoutRequest source).pushPcDeeds
  | none => []

/-- A check for interrupts comes about by its deeds. -/
theorem leads_serviceInterrupts (s : System Hardware) :
    Leads s s.deedsOfCheck s.serviceInterrupts.1 := by
  unfold deedsOfCheck
  split
  next source urgent =>
    have takenBack : Leads s [] (s.wake.withoutRequest source) :=
      .aside rfl ⟨rfl, rfl, Nat.le_refl _⟩
    rw [serviceInterrupts_of_dispatched urgent, dispatch_eq_enterHandler]
    exact takenBack.trans (.works (.enterHandler _ _))
  next quiet =>
    obtain same | woken := serviceInterrupts_of_not_dispatched quiet
    · rw [same]
      exact .refl s
    · rw [woken]
      exact .aside rfl (.refl s.bus)

end System

namespace Machine

open Handheld.System (Works Leads)

/-! ## Cells -/

/-- A machine has a cell exactly where there is a byte. -/
theorem cell?_isSome (m : Machine) (place : Place) :
    (m.cell? place).isSome = System.present m.bus place := by
  unfold cell?
  rw [Option.isSome_map]
  cases place <;> rfl

/-- The note of a cell is the one in the ledger. -/
theorem cell?_eq {m : Machine} {place : Place} {cell : Cell} (found : m.cell? place = some cell) :
    cell.note = m.ledger.note place := by
  obtain ⟨value, -, rfl⟩ := Option.map_eq_some_iff.mp found
  rfl

/-! ## Steps -/

/-- The operation that the next step executes, none if it waits or meets a byte that encodes no
instruction. -/
def executed (m : Machine) : Option Operation :=
  let s := m.serviceInterrupts.1
  let operation := (s.decode s.cpu.pc).2
  if s.cpu.halted || operation.isIllegal then none else some operation

/-- The first half of a step executes what is to be executed. -/
theorem acted_of_executed {m : Machine} {operation : Operation}
    (executes : m.executed = some operation) :
    let s := m.serviceInterrupts.1
    (s.decode s.cpu.pc).2 = operation ∧
      m.acted = some ((s.decode s.cpu.pc).1.execute operation) := by
  intro s
  simp only [executed] at executes
  split at executes
  next => contradiction
  next goes =>
    simp only [Bool.or_eq_true, not_or] at goes
    cases executes
    refine ⟨rfl, ?_⟩
    simp only [acted]
    rw [if_neg goes.1, if_neg goes.2]

/-- A step that executes nothing is stuck or waits. -/
theorem acted_of_not_executed {m : Machine} (nothing : m.executed = none) :
    m.acted = none ∨ m.acted = some (m.serviceInterrupts.1.spend 4) := by
  simp only [executed] at nothing
  simp only [acted]
  split at nothing
  next stays =>
    split
    next => exact .inr rfl
    next awake =>
      simp only [awake, Bool.false_or] at stays
      rw [if_pos stays]
      exact .inl rfl
  next => contradiction

/-- The deeds of the instruction that a step executes. -/
def deedsOfInstruction (m : Machine) : List Deed :=
  let s := m.serviceInterrupts.1
  match m.executed with
  | some operation => (s.decode s.cpu.pc).1.deedsOf operation
  | none => []

/-- The deeds of a step: those of the check for interrupts and of the instruction after it. -/
def deedsOfStep (m : Machine) : List Deed := m.deedsOfCheck ++ m.deedsOfInstruction

/-- The end of a step comes about by no deeds. -/
theorem leads_finishStep (s : System Hardware) (start : UInt64) (quit : Bool) :
    Leads s [] (finishStep s start quit).1.toSystem := by
  have ledger : (finishStep s start quit).1.ledger = s.ledger := by
    unfold finishStep
    dsimp only
    split <;> rfl
  have lasting := Hardware.lasting_holds s.bus
  refine .aside ledger ?_
  rw [finishStep_bus]
  exact lasting.hear (lasting.update (.refl s.bus) _ _)

/-- What follows the check for interrupts comes about by the deeds of the instruction. -/
theorem leads_instruction (m : Machine) :
    Leads m.serviceInterrupts.1 m.deedsOfInstruction m.step.1.toSystem := by
  let s := m.serviceInterrupts.1
  have decoded : Leads s [] (s.decode s.cpu.pc).1 := .works (.decode s _)
  unfold deedsOfInstruction
  cases executes : m.executed with
  | some operation =>
    obtain ⟨-, acts⟩ := acted_of_executed executes
    obtain ⟨_, -, works⟩ := Works.execute (s.decode s.cpu.pc).1 operation
    have finished := (decoded.trans (.works works)).trans (leads_finishStep _ m.cpu.cycles m.quit)
    rw [List.append_nil] at finished
    rw [step_of_acted acts]
    exact finished
  | none =>
    obtain stuck | waits := acted_of_not_executed executes
    · obtain ⟨-, system⟩ := system_of_not_acted stuck
      rw [system]
      exact decoded
    · have waited : Leads s [] (s.spend 4) := .works (.spend s 4)
      rw [step_of_acted waits]
      exact waited.trans (leads_finishStep _ m.cpu.cycles m.quit)

/-- A step comes about by its deeds. -/
theorem leads_step (m : Machine) : Leads m.toSystem m.deedsOfStep m.step.1.toSystem :=
  m.leads_serviceInterrupts.trans m.leads_instruction

/-! ## Rows of steps -/

/-- A path of steps is a number of steps. -/
theorem after_of_steps {R : UInt64 → UInt64 → Prop} {m next : Machine} (path : Steps R m next) :
    ∃ k, next = m.after k := by
  induction path with
  | refl => exact ⟨0, rfl⟩
  | tail _ last ih =>
    obtain ⟨k, rfl⟩ := ih
    exact ⟨k + 1, last.1⟩

/-- A session of steps is a number of steps. -/
theorem session_steps (m : Machine) (k : Nat) :
    (m.session (List.replicate k .step)).1 = m.after k := by
  induction k generalizing m with
  | zero => rfl
  | succ k ih => exact (ih m.step.1).trans (m.after_step k)

/-- A run is a number of steps. -/
theorem run_is_steps (m : Machine) (limit : Option UInt64) : ∃ k, (m.run limit).1 = m.after k := by
  have along : m.Along (fun _ _ => True) [.run limit] := along_of_always (fun _ _ => trivial) m _
  have path : Steps (fun _ _ => True) m (m.run limit).1 := along.1
  exact after_of_steps path

/-- A frame is a number of steps. -/
theorem stepFrame_is_steps (m : Machine) : ∃ k, m.stepFrame.1 = m.after k := by
  have along : m.Along (fun _ _ => True) [.stepFrame] := along_of_always (fun _ _ => trivial) m _
  have path : Steps (fun _ _ => True) m m.stepFrame.1 := along.1
  exact after_of_steps path

/-- Any number of steps comes about by deeds. -/
theorem leads_after (m : Machine) (k : Nat) :
    ∃ deeds, Leads m.toSystem deeds (m.after k).toSystem := by
  induction k with
  | zero => exact ⟨[], .refl _⟩
  | succ k ih =>
    obtain ⟨deeds, leads⟩ := ih
    exact ⟨_, leads.trans (m.after k).leads_step⟩

/-! ## Requests -/

/-- The deeds of a request. A run and a frame are rows of steps and have none of their own, and
neither has what starts the machine anew or exchanges the cartridge. -/
def deedsOf (m : Machine) : Request → List Deed
  | .step => m.deedsOfStep
  | .write address _ => [.write (m.resolve address)]
  | .execute operation => m.toSystem.deedsOf operation
  | .serviceInterrupt _ => m.pushPcDeeds
  | .move destination source => [.move destination source]
  | _ => []

/-- A request that is no row of steps comes about by its deeds, if it goes on. -/
theorem leads_request {m : Machine} {request : Request} (single : request.isRow = false)
    (continues : request.continues = true) :
    Leads m.toSystem (m.deedsOf request) (m.perform request).1.toSystem := by
  cases request with
  | reset | swap => cases continues
  | run | stepFrame => cases single
  | step => exact m.leads_step
  | read address => exact .refl _
  | write address value => exact .works (.write m.toSystem _ value)
  | decode address => exact .works (.decode m.toSystem address)
  | execute operation =>
    obtain ⟨_, -, executed⟩ := Works.execute m.toSystem operation
    exact .works executed
  | raiseInterrupt mask => exact .aside rfl ⟨rfl, rfl, Nat.le_refl _⟩
  | serviceInterrupt vector => exact .works (.enterHandler m.toSystem vector)
  | mark place usage => exact .works (.mark m.toSystem place usage)
  | markOrigin place usage => exact .works (.markOrigin m.toSystem place usage)
  | move destination source => exact .works (.move m.toSystem destination source)
  | requestQuit => exact .refl _
  | install controller =>
    refine .aside rfl ⟨rfl, rfl, ?_⟩
    show _ ≤ (m.bus.cartridge.install controller).sram.size
    simp [Cartridge.install]

/-- Any request that goes on comes about by deeds. -/
theorem leads_perform {m : Machine} {request : Request} (continues : request.continues = true) :
    ∃ deeds, Leads m.toSystem deeds (m.perform request).1.toSystem := by
  cases row : request.isRow with
  | false => exact ⟨_, leads_request row continues⟩
  | true =>
    cases request with
    | run limit =>
      obtain ⟨k, steps⟩ := m.run_is_steps limit
      show ∃ deeds, Leads m.toSystem deeds (m.run limit).1.toSystem
      rw [steps]
      exact m.leads_after k
    | stepFrame =>
      obtain ⟨k, steps⟩ := m.stepFrame_is_steps
      show ∃ deeds, Leads m.toSystem deeds m.stepFrame.1.toSystem
      rw [steps]
      exact m.leads_after k
    | _ => cases row

/-- A session of requests that go on comes about by deeds. -/
theorem leads_session {m : Machine} {requests : List Request}
    (continues : ∀ request ∈ requests, request.continues = true) :
    ∃ deeds, Leads m.toSystem deeds (m.session requests).1.toSystem := by
  induction requests generalizing m with
  | nil => exact ⟨[], .refl _⟩
  | cons request requests ih =>
    obtain ⟨_, first⟩ := leads_perform (m := m) (continues request List.mem_cons_self)
    obtain ⟨_, rest⟩ := ih fun next mem => continues next (List.mem_cons_of_mem _ mem)
    exact ⟨_, first.trans rest⟩

end Machine

end Handheld
