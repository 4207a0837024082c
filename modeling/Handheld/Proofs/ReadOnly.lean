import Mathlib.Data.List.Basic
import Handheld.Proofs.Arrivals
import Handheld.Proofs.BootImage

/-!
# What only the hardware changes

A program may store any byte at any place, and some things stay what they are (`ReadOnlyKept`):
the ROM and the boot image, the line counter, the mode and the coincidence bit in the status of
the screen, the bit that tells the speed, and the fact that the boot image is unmapped. Block
copies, palettes, transfers and the commands of a flash cartridge are no way around this.

So the line and the mode are a matter of the devices. In a session they change at its turns and
nowhere else (`ChangesOnlyIn`): when the devices catch up at the end of a step, and at a reset.
The ROM is that of the cartridge inserted last.
-/

set_option autoImplicit false

namespace Handheld

namespace Hardware

/-! ## Stores -/

/-- What is read-only in one state is kept in another. -/
structure ReadOnlyKept (hw next : Hardware) : Prop where
  rom : next.cartridge.rom = hw.cartridge.rom
  boot : next.memories.boot = hw.memories.boot
  line : next.stored .ly = hw.stored .ly
  mode : next.stored .stat &&& 0x07 = hw.stored .stat &&& 0x07
  speed : next.stored .key1 &&& 0x80 = hw.stored .key1 &&& 0x80
  unmapped : hw.stored .boot ≠ 0 → next.stored .boot ≠ 0

/-- The three low bits of the screen status cannot be written. -/
theorem registerKeeps_mode (stored value : UInt8) :
    registerKeeps .stat stored value &&& 0x07 = stored &&& 0x07 := by
  show ((stored &&& 0x07) ||| (value &&& 0x78)) &&& 0x07 = _
  have others : value &&& 0x78 &&& 0x07 = 0 := (UInt8.and_assoc ..).trans UInt8.and_zero
  rw [or_and_mask, others, UInt8.or_zero, UInt8.and_assoc, UInt8.and_self]

/-- What holds of a register, and of all that it may keep of a value, holds after a store. -/
theorem Written.stored_kept {hw next : Hardware} (written : hw.Written next) (r : DeviceRegister)
    (P : UInt8 → Prop) (rule : ∀ value, P (registerKeeps r (hw.stored r) value))
    (here : P (hw.stored r)) : P (next.stored r) := by
  obtain same | ⟨value, kept⟩ := written.stored r
  · rwa [same]
  · rw [kept]
    exact rule value

/-- Every store keeps what is read only. -/
theorem readOnlyKept_store (hw : Hardware) (place : Place) (value : UInt8) :
    hw.ReadOnlyKept (hw.store place value) := by
  have written := hw.written_store place value
  exact {
    rom := hw.store_rom place value
    boot := written.boot
    line := written.stored_kept .ly (· = hw.stored .ly) (fun _ => rfl) rfl
    mode := written.stored_kept .stat (· &&& 0x07 = hw.stored .stat &&& 0x07)
      (registerKeeps_mode _) rfl
    speed := written.stored_kept .key1 (· &&& 0x80 = hw.stored .key1 &&& 0x80)
      (SameMode.registerKeeps_speed _) rfl
    unmapped := fun gone => written.stored_kept .boot (· ≠ 0) (registerKeeps_boot gone) gone }

/-! ## The screen -/

/-- The line counter, and the mode of the screen with the coincidence bit. -/
def screenState (hw : Hardware) : UInt8 × UInt8 := (hw.stored .ly, hw.stored .stat &&& 0x07)

/-- Setting another register leaves what the screen tells alone. -/
theorem screenState_setStored (hw : Hardware) {r : DeviceRegister} (value : UInt8)
    (line : r ≠ .ly) (status : r ≠ .stat) :
    (hw.setStored r value).screenState = hw.screenState := by
  simp only [screenState, stored_setStored, if_neg line, if_neg status]

/-- The reboot latch leaves what the screen tells alone. -/
theorem screenState_heard (hw : Hardware) :
    { hw with rebootRequested := false }.screenState = hw.screenState := rfl

/-- A processor does not change what the screen tells, whatever arrives at the hardware. -/
theorem heeds_screenState : Heeds screenState fun shown _ => shown where
  store hw place value := by
    have kept := hw.readOnlyKept_store place value
    exact Prod.ext kept.line kept.mode
  sync _ _ := rfl
  requests hw value := hw.screenState_setStored value nofun nofun
  speed hw value := hw.screenState_setStored value nofun nofun

end Hardware

/-- A point at which the devices catch up or the machine is reset: what it finds of the hardware,
and what it leaves. -/
structure Turn where
  before : Hardware
  after : Hardware

/-- Between two states a view of the hardware changes at some turns and nowhere else: what each
of them finds is what the one before it has left. -/
def ChangesOnlyIn {α : Type} (view : Hardware → α) (first : Hardware) :
    List Turn → Hardware → Prop
  | [], last => view last = view first
  | turn :: turns, last =>
    view turn.before = view first ∧ ChangesOnlyIn view turn.after turns last

namespace ChangesOnlyIn

variable {α : Type} {view : Hardware → α} {first middle last : Hardware} {turns later : List Turn}

/-- Changes at some turns and then at others are changes at all of them. -/
theorem trans (before : ChangesOnlyIn view first turns middle)
    (after : ChangesOnlyIn view middle later last) :
    ChangesOnlyIn view first (turns ++ later) last := by
  induction turns generalizing first with
  | nil =>
    have same : view middle = view first := before
    -- What the next turn finds, if there is one, is what there was at first.
    cases later with
    | nil => exact Eq.trans after same
    | cons turn later => exact ⟨after.1.trans same, after.2⟩
  | cons turn turns ih => exact ⟨before.1, ih before.2⟩

/-- In the end the view is what the last turn has left. -/
theorem shown (changes : ChangesOnlyIn view first turns last) :
    view last = (turns.getLast?.map fun turn => view turn.after).getD (view first) := by
  induction turns generalizing first with
  | nil => exact changes
  | cons turn turns ih =>
    rw [List.getLast?_cons, ih changes.2]
    cases turns.getLast? with
    | none => rfl
    | some final => rfl

end ChangesOnlyIn

/-- The ROM after a request: that of the cartridge put in, or the one there was. -/
def Request.chip (rom : Rom) : Request → Rom
  | .swap cartridge _ => cartridge.rom
  | _ => rom

namespace Machine

open Hardware

/-- The turn of a step, none if the machine is stuck. -/
def turnOfStep (m : Machine) : Option Turn :=
  m.acted.map fun s => ⟨s.bus, (s.bus.update s.cpu.cycles s.cpu.speed).1⟩

/-- The turns of a request: those of its steps, or a reset. -/
def turnsIn (m : Machine) : Request → List Turn
  | .reset => [⟨m.bus, m.reset.bus⟩]
  | request => (List.range (m.stepsOf request)).flatMap fun i => (m.after i).turnOfStep.toList

/-- The turns of a session. -/
def turns (m : Machine) : List Request → List Turn
  | [] => []
  | request :: requests => m.turnsIn request ++ (m.perform request).1.turns requests

/-! ## Turns -/

/-- In a step the screen changes only when the devices catch up. -/
theorem screenState_step (m : Machine) :
    ChangesOnlyIn screenState m.bus m.turnOfStep.toList m.step.1.bus := by
  unfold turnOfStep
  cases acts : m.acted with
  | some s =>
    have found : s.bus.screenState = m.bus.screenState :=
      (heeds_screenState.acted acts).trans (List.foldl_fixed _)
    refine ⟨found, ?_⟩
    rw [step_of_acted acts, finishStep_bus]
    exact screenState_heard _
  | none => exact (heeds_screenState.stuck acts).trans (List.foldl_fixed _)

/-- In any number of steps the screen changes only when the devices catch up. -/
theorem screenState_after (m : Machine) (k : Nat) :
    ChangesOnlyIn screenState m.bus
      ((List.range k).flatMap fun i => (m.after i).turnOfStep.toList) (m.after k).bus := by
  induction k with
  | zero => exact Eq.refl m.bus.screenState
  | succ k ih =>
    rw [List.range_succ, List.flatMap_append, List.flatMap_singleton, after_succ]
    exact ih.trans (m.after k).screenState_step

/-- In a request the screen changes only when the devices catch up or the machine is reset. -/
theorem screenState_perform (m : Machine) (request : Request) :
    ChangesOnlyIn screenState m.bus (m.turnsIn request) (m.perform request).1.bus := by
  cases steps : request.stepping with
  | true =>
    rw [m.perform_of_stepping steps]
    cases request with
    | step | run | stepFrame => exact m.screenState_after _
    | _ => cases steps
  | false =>
    cases renews : request.renews with
    | true =>
      cases request with
      | reset => exact ⟨rfl, rfl⟩
      | swap | install => exact Eq.refl m.bus.screenState
      | _ => cases renews
    | false =>
      -- There are no turns, and the processor alone does not change the view.
      have same : (m.perform request).1.bus.screenState = m.bus.screenState :=
        (heeds_screenState.perform steps renews).trans (List.foldl_fixed _)
      cases request with
      | step | run | stepFrame => cases steps
      | reset => cases renews
      | _ => exact same

/-- In a session the screen changes only when the devices catch up or the machine is reset. -/
theorem screenState_session (m : Machine) (requests : List Request) :
    ChangesOnlyIn screenState m.bus (m.turns requests) (m.session requests).1.bus := by
  induction requests generalizing m with
  | nil => exact Eq.refl m.bus.screenState
  | cons request requests ih =>
    exact (m.screenState_perform request).trans (ih (m.perform request).1)

/-! ## ROM -/

/-- A request leaves the ROM alone, or puts in that of its cartridge. -/
theorem rom_perform (m : Machine) (request : Request) :
    (m.perform request).1.bus.cartridge.rom = request.chip m.bus.cartridge.rom := by
  cases renews : request.renews with
  | true =>
    cases request with
    | reset => exact congrArg (fun cartridge => cartridge.rom) m.reset_keeps.1
    | swap | install => rfl
    | _ => cases renews
  | false =>
    have holds : Holds m.bus (m.perform request).1.bus := by
      apply perform_of_lasting (lasting_holds m.bus) (.refl m.bus)
      intro renewed
      rw [renews] at renewed
      cases renewed
    rw [holds.rom]
    cases request with
    | swap => cases renews
    | _ => rfl

/-- A session leaves the ROM of the last cartridge that was put in. -/
theorem rom_session (m : Machine) (requests : List Request) :
    (m.session requests).1.bus.cartridge.rom =
      requests.foldl Request.chip m.bus.cartridge.rom := by
  induction requests generalizing m with
  | nil => rfl
  | cons request requests ih =>
    rw [List.foldl_cons, ← m.rom_perform request]
    exact ih (m.perform request).1

/-- No store changes what is read-only, whatever the devices and the cartridge make of it. So in
a session the line and the mode change when the devices catch up and at a reset, and nowhere
else, the ROM is that of the cartridge inserted last, and the boot image is what it was. -/
theorem read_only_state_changes_by_hardware_alone :
    (∀ (hw : Hardware) (place : Place) (value : UInt8),
      hw.ReadOnlyKept (hw.store place value)) ∧
    ∀ (m : Machine) (requests : List Request),
      let last := (m.session requests).1.bus
      ChangesOnlyIn screenState m.bus (m.turns requests) last ∧
        last.cartridge.rom = requests.foldl Request.chip m.bus.cartridge.rom ∧
        last.memories.boot = m.bus.memories.boot := by
  refine ⟨readOnlyKept_store, ?_⟩
  intro m requests last
  exact ⟨m.screenState_session requests, m.rom_session requests, m.session_boot requests⟩

/-- A boot program that stores to the line counter and to the status of the screen while a line
ends. -/
def tampering : Machine :=
  let m := (assemble .empty #[0x3E, 0x99, 0xE0, 0x44, 0xE0, 0x41]).reset.writeAt 0xFF40 0x80
  { m with cpu := { m.cpu with cycles := 440 } }

/-- The second step begins the next line, and neither what the program stores nor what is stored
from outside is seen there. A boot image that is unmapped cannot be brought back. -/
theorem read_only_state_changes_by_hardware_alone_of_tampering :
    let requests := [.run (some 32), .write 0xFF44 0x00, .move (.io 0x41) (.io 0x44)]
    let turns := tampering.turns requests
    let last := (tampering.session requests).1.bus
    (turns.map fun turn => (turn.before.screenState, turn.after.screenState)) =
        [((0, 0), (0, 4)), ((0, 4), (1, 2)), ((1, 2), (1, 2))] ∧
      last.screenState = (1, 2) ∧ last.cartridge.rom = Cartridge.empty.rom ∧
      booted.bus.stored .boot ≠ 0 ∧ (booted.bus.store (.io 0x50) 0x00).stored .boot ≠ 0 := by
  intro requests turns last
  obtain ⟨store, run⟩ := read_only_state_changes_by_hardware_alone
  obtain ⟨changes, rom, -⟩ := run tampering requests
  have shown : (turns.map fun turn => (turn.before.screenState, turn.after.screenState)) =
      [((0, 0), (0, 4)), ((0, 4), (1, 2)), ((1, 2), (1, 2))] := by
    decide +kernel
  have unmapped : booted.bus.stored .boot ≠ 0 := by decide
  have left : (turns.getLast?.map fun turn => turn.after.screenState) = some (1, 2) := by
    decide +kernel
  have final : last.screenState = (1, 2) := by
    rw [changes.shown, left, Option.getD_some]
  exact ⟨shown, final, rom, unmapped, (store _ _ _).unmapped unmapped⟩

end Machine

end Handheld
