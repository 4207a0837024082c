import Handheld.Proofs.Hardware.CatchUp
import Handheld.Proofs.Hardware.Stores
import Handheld.Proofs.Step
import Handheld.Proofs.Watch

/-!
# No interrupt request is lost

A request stays until its handler is called or the program overwrites the register of the
requests. The register is written by the check for interrupts, which writes back what it
read less one bit, by the devices, which set bits, and by stores; of these only a store to
its own place replaces it.

`Retains` compares the requests of two states of the hardware. Everything that can happen to
the hardware from outside, a reset apart, is listed by `Activity`, and all but one of the
entries retain the requests. A step is looked at in its parts: the check, with the call of
a handler, the instruction, and the devices. Which places it stores to is told by watching
it.
-/

set_option autoImplicit false

namespace Handheld

/-- The masks of two sources have no bit in common. -/
theorem Interrupt.mask_apart {source other : Interrupt} (apart : other ≠ source) :
    ~~~ other.mask &&& source.mask = source.mask := by
  cases source <;> cases other <;> first | contradiction | rfl

namespace Hardware

/-- Whether the interrupt of a source is requested. -/
def Requested (hw : Hardware) (source : Interrupt) : Prop := hw.interruptFlag &&& source.mask ≠ 0

instance (hw : Hardware) (source : Interrupt) : Decidable (hw.Requested source) :=
  inferInstanceAs (Decidable (_ ≠ _))

/-- No request is lost on the way from one state of the hardware to another. -/
def Retains (hw next : Hardware) : Prop := ∀ source, hw.Requested source → next.Requested source

/-- A source is requested exactly if its bit is set in the register. -/
theorem requested_iff (hw : Hardware) (source : Interrupt) :
    hw.Requested source ↔ hw.stored .irq &&& source.mask ≠ 0 := by
  unfold Requested interruptFlag
  rw [UInt8.and_assoc, UInt8.and_comm 0x1F, mask_requests]

namespace Retains

variable {hw next last : Hardware}

/-- Requests that are retained twice over are retained. -/
theorem trans (first : Retains hw next) (second : Retains next last) : Retains hw last := by
  intro source requested
  exact second source (first source requested)

/-- With the same register the requests are retained. -/
theorem of_same (same : next.stored .irq = hw.stored .irq) : Retains hw next := by
  intro source requested
  rw [requested_iff] at requested ⊢
  rwa [same]

/-- With more bits in the register the requests are retained. -/
theorem of_more {raised : UInt8} (more : next.stored .irq = hw.stored .irq ||| raised) :
    Retains hw next := by
  intro source requested
  rw [requested_iff] at requested ⊢
  rw [more, or_and_mask]
  intro none
  exact requested (UInt8.or_eq_zero_iff.mp none).1

end Retains

/-! ## What can happen to the hardware -/

/-- What can happen to the hardware from outside, a reset and the end of a request apart. -/
inductive Activity where
  | store (place : Place) (value : UInt8)
  | copySprites (page : UInt8)
  | copyVideo (control : UInt8)
  | sync (now : UInt64)
  | update (now : UInt64) (speed : UInt8)
  | raise (mask : UInt8)
  | switchSpeed (double : Bool)
  | insert (cartridge : Cartridge)
  | install (controller : Controller)

/-- The hardware after an activity. -/
def undergo (hw : Hardware) : Activity → Hardware
  | .store place value => AddressSpace.store hw place value
  | .copySprites page => (hw.spriteMoves page).foldl carryOut hw
  | .copyVideo control => (hw.videoMoves control).foldl carryOut hw
  | .sync now => AddressSpace.sync hw now
  | .update now speed => (hw.update now speed).1
  | .raise mask => hw.raiseInterrupt mask
  | .switchSpeed double => AddressSpace.setDoubleSpeed hw double
  | .insert cartridge => hw.insert cartridge
  | .install controller => { hw with cartridge := hw.cartridge.install controller }

/-- The register of the requests lies at one address. -/
theorem resolve_requests (hw : Hardware) : hw.resolve 0xFF0F = .io 0x0F := rfl

/-- A store anywhere but at the register retains the requests. -/
theorem retains_store (hw : Hardware) {place : Place} (elsewhere : place ≠ .io 0x0F)
    (value : UInt8) : Retains hw (hw.store place value) := by
  apply Retains.of_same
  apply hw.stored_store_of_ne value elsewhere
  · simp
  · simp

/-- A block copy retains the requests. -/
theorem retains_copy (hw : Hardware) (moves : List Move) :
    Retains hw (moves.foldl carryOut hw) := by
  apply Retains.of_same
  exact congrArg (fun hw => hw.stored .irq) (hw.carryOut_bare moves)

/-- Devices that catch up add their requests to those that are there. -/
theorem retains_update (hw : Hardware) (now : UInt64) (speed : UInt8) :
    Retains hw (hw.update now speed).1 := by
  obtain ⟨-, -, -, -, -, requests⟩ := hw.devices.update_parts (hw.controls speed) now
  rw [update_eq]
  apply Retains.of_more
  rw [stored_withDevices, requests, UInt8.or_assoc, UInt8.or_assoc]
  rfl

/-- A change of speed retains the requests. -/
theorem retains_switchSpeed (hw : Hardware) (double : Bool) :
    Retains hw (AddressSpace.setDoubleSpeed hw double) := by
  apply Retains.of_same
  exact stored_setStored hw .key1 .irq _

/-- Whatever the hardware undergoes retains the requests, but for a store to the register. -/
theorem retains_undergo (hw : Hardware) {activity : Activity}
    (spares : ∀ value, activity ≠ .store (.io 0x0F) value) :
    Retains hw (hw.undergo activity) := by
  cases activity with
  | store place value =>
    apply hw.retains_store
    rintro rfl
    exact spares value rfl
  | copySprites page => exact hw.retains_copy _
  | copyVideo control => exact hw.retains_copy _
  | update now speed => exact hw.retains_update now speed
  | raise mask => exact .of_more (stored_setStored hw .irq .irq _)
  | switchSpeed double => exact hw.retains_switchSpeed double
  | sync | insert | install => exact .of_same rfl

/-- What holds of one activity holds of any number of them. -/
theorem retains_foldl_undergo (hw : Hardware) {activities : List Activity}
    (spares : ∀ value, .store (.io 0x0F) value ∉ activities) :
    Retains hw (activities.foldl undergo hw) := by
  induction activities generalizing hw with
  | nil => exact .of_same rfl
  | cons activity activities ih =>
    have first : Retains hw (hw.undergo activity) := by
      apply hw.retains_undergo
      rintro value rfl
      exact spares value List.mem_cons_self
    apply first.trans
    apply ih
    intro value later
    exact spares value (List.mem_cons_of_mem _ later)

end Hardware

namespace System

/-! ## A processor that is watched -/

open Hardware

/-- What was stored to stays on the list, and if the register of the requests is not on it
when the processor is done, no request has been lost. -/
theorem Proceeds.retains {s s' : System (Watched Hardware)} {n : Nat} (h : Proceeds s n s') :
    s.bus.stores ⊆ s'.bus.stores ∧
      (.io 0x0F ∉ s'.bus.stores → Retains s.bus.bus s'.bus.bus) := by
  induction h with
  | think _ bus | spend _ _ bus | tick _ _ bus | takeBack _ _ bus =>
    rw [bus]
    exact ⟨List.Subset.refl _, fun _ => .of_same rfl⟩
  | store place value _ bus =>
    rw [bus]
    refine ⟨List.subset_append_left _ _, ?_⟩
    intro untouched
    apply retains_store
    rintro rfl
    exact untouched (List.mem_append_right _ List.mem_cons_self)
  | @switch s _ speed _ _ bus =>
    rw [bus]
    exact ⟨List.Subset.refl _, fun _ => s.bus.bus.retains_switchSpeed (speed == 2)⟩
  | trans _ _ first second =>
    refine ⟨List.Subset.trans first.1 second.1, ?_⟩
    intro untouched
    have before := first.2 fun stored => untouched (second.1 stored)
    exact before.trans (second.2 untouched)

variable {β : Type} [AddressSpace β]

/-- The places that the execution of an operation stores to. -/
def storesOf (s : System β) (operation : Operation) : List Place :=
  (s.watched.execute operation).bus.stores

/-- An operation that does not store to the register retains the requests. -/
theorem retains_execute (s : System Hardware) {operation : Operation}
    (untouched : .io 0x0F ∉ s.storesOf operation) : Retains s.bus (s.execute operation).bus := by
  obtain ⟨more, -, executed⟩ := (Proceeds.refl s.watched).execute operation
  have same : (s.watched.execute operation).bus.bus = (s.execute operation).bus :=
    congrArg System.bus (s.watched.unwatched_execute operation)
  rw [← same]
  exact executed.retains.2 untouched

/-- Entering a handler retains the requests, unless the stack lies over the register. -/
theorem retains_enterHandler (s : System Hardware) {vector : UInt16}
    (untouched : .io 0x0F ∉ (s.watched.enterHandler vector).bus.stores) :
    Retains s.bus (s.enterHandler vector).bus := by
  have entered := (Proceeds.refl s.watched).enterHandler vector
  have same : (s.watched.enterHandler vector).bus.bus = (s.enterHandler vector).bus :=
    congrArg System.bus (s.watched.unwatched_enterHandler vector)
  rw [← same]
  exact entered.retains.2 untouched

/-! ## The check for interrupts -/

/-- The places that a check for interrupts stores to: the two bytes of the stack on which
the program counter is put for a handler. -/
def storesOfCheck (s : System β) : List Place :=
  match s.dispatched with
  | some source =>
    ((s.wake.withoutRequest source).watched.enterHandler source.vector).bus.stores
  | none => []

/-- The request of another source stays when one is taken back. -/
theorem requested_withoutRequest {s : System Hardware} {source other : Interrupt}
    (apart : other ≠ source) (requested : s.bus.Requested source) :
    (s.withoutRequest other).bus.Requested source := by
  have left : (s.withoutRequest other).bus.stored .irq =
      s.bus.interruptFlag &&& ~~~ other.mask &&& 0x1F :=
    stored_setStored s.bus .irq .irq _
  rw [requested_iff, left, UInt8.and_assoc, UInt8.and_comm 0x1F, mask_requests, UInt8.and_assoc,
    Interrupt.mask_apart apart]
  exact requested

/-- A check for interrupts retains the requests of all sources but the one it dispatches. -/
theorem requested_serviceInterrupts {s : System Hardware} {source : Interrupt}
    (requested : s.bus.Requested source) (other : s.dispatched ≠ some source)
    (untouched : .io 0x0F ∉ s.storesOfCheck) : s.serviceInterrupts.1.bus.Requested source := by
  unfold storesOfCheck at untouched
  split at untouched
  next urgent found =>
    have apart : urgent ≠ source := by
      rintro rfl
      exact other found
    have left : (s.wake.withoutRequest urgent).bus.Requested source :=
      requested_withoutRequest apart requested
    rw [serviceInterrupts_of_dispatched found, dispatch_eq_enterHandler]
    exact retains_enterHandler _ untouched source left
  next quiet =>
    rw [serviceInterrupts_bus_of_not_dispatched quiet]
    exact requested

end System

namespace Machine

open Hardware

/-! ## A step -/

/-- The places that the processor stores to in a step, by the check for interrupts and by the
instruction after it. -/
def storesOfStep (m : Machine) : List Place :=
  let s := m.serviceInterrupts.1
  let (decoded, operation) := s.decode s.cpu.pc
  m.storesOfCheck ++
    if s.cpu.halted || operation.isIllegal then [] else decoded.storesOf operation

/-- The first half of a step retains the requests that the check for interrupts left. -/
theorem retains_acted {m : Machine} {s : System Hardware} (acts : m.acted = some s)
    (untouched : .io 0x0F ∉ m.storesOfStep) : Retains m.serviceInterrupts.1.bus s.bus := by
  simp only [storesOfStep, List.mem_append, not_or] at untouched
  have instruction := untouched.2
  simp only [acted] at acts
  split at acts
  next =>
    cases acts
    exact .of_same rfl
  next awake =>
    split at acts
    next => contradiction
    next legal =>
      cases acts
      rw [if_neg (by simp [awake, legal])] at instruction
      have executed := System.retains_execute _ instruction
      rwa [System.decode_bus] at executed

/-- The end of a step retains the requests. -/
theorem retains_finishStep (s : System Hardware) (start : UInt64) (quit : Bool) :
    Retains s.bus (finishStep s start quit).1.bus := by
  obtain ⟨-, registers, -⟩ := finishStep_parts s start quit
  have updated := s.bus.retains_update s.cpu.cycles s.cpu.speed
  exact updated.trans (.of_same (registers .irq))

/-- A request that is there before a step is there after it, unless its own handler was
called or the processor stored to the register of the requests. And whatever else happens
to the hardware, no request is lost. -/
theorem requests_are_not_lost :
    (∀ (m : Machine) (source : Interrupt), m.bus.Requested source →
      m.dispatched ≠ some source → m.resolve 0xFF0F ∉ m.storesOfStep →
        m.step.1.bus.Requested source) ∧
    ∀ (hw : Hardware) (activities : List Activity),
      (∀ value, .store (hw.resolve 0xFF0F) value ∉ activities) →
        ∀ source, hw.Requested source → (activities.foldl undergo hw).Requested source := by
  constructor
  · intro m source requested other untouched
    have elsewhere : Place.io 0x0F ∉ m.storesOfStep := untouched
    have check : Place.io 0x0F ∉ m.storesOfCheck := by
      intro stored
      exact elsewhere (List.mem_append_left _ stored)
    have checked := System.requested_serviceInterrupts requested other check
    cases acts : m.acted with
    | some s =>
      rw [step_of_acted acts]
      exact retains_finishStep s _ _ source (retains_acted acts elsewhere source checked)
    | none =>
      rw [(step_of_not_acted acts).2.2]
      exact checked
  · intro hw activities spares
    rw [resolve_requests] at spares
    exact hw.retains_foldl_undergo spares

/-- A machine with two requests, both of them let through, under a boot image made of
calls. -/
def twiceRequested : Machine :=
  let both := Interrupt.vblank.mask ||| Interrupt.timer.mask
  let memories : Memories := { boot := Array.replicate 0x80 0xFF, interruptEnable := both }
  { cpu := { interruptsEnabled := true, registers := ({} : Registers).setPair .sp 0xFFFE }
    bus := { Hardware.assemble .empty #[] with memories }.raiseInterrupt both }

/-- The more urgent request is answered, the program counter is put on the stack twice, and
the other request is still there. It outlasts a transfer that starts and the devices that
catch up, too. -/
theorem requests_are_not_lost_in_dispatch :
    let m := twiceRequested
    let activities := [.store (.io 0x02) 0x81, .update 4096 1, .raise Interrupt.joypad.mask]
    m.dispatched = some .vblank ∧ ¬ m.step.1.bus.Requested .vblank ∧
      m.step.1.bus.Requested .timer ∧
      (activities.foldl undergo m.bus).Requested .timer := by
  intro m activities
  have requested : m.bus.Requested .timer := by decide
  have first : m.dispatched = some .vblank := by decide
  have untouched : m.resolve 0xFF0F ∉ m.storesOfStep := by decide +kernel
  have spares : ∀ value, .store (m.bus.resolve 0xFF0F) value ∉ activities := by
    simp [resolve_requests, activities]
  obtain ⟨step, events⟩ := requests_are_not_lost
  have answered : ¬ m.step.1.bus.Requested .vblank := by decide +kernel
  exact ⟨first, answered, step m .timer requested (by simp [first]) untouched,
    events m.bus activities spares .timer requested⟩

end Machine

end Handheld
