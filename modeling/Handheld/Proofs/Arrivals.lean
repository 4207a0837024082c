import Handheld.Proofs.Deeds
import Handheld.Proofs.Enclosure
import Handheld.Proofs.StepCount

/-!
# The bytes that arrive at the hardware

A logged address space keeps a list of the bytes that were stored to it, each with its place and
with the state that it found. So for every step, and for every request of a session, the bytes
that reach the hardware are told, in order and whichever way they took: a write, a move, the
execution of an instruction, or the call of a handler (`arrivalsOfStep`, `arrivals`).

A view of the hardware heeds the bytes that arrive if each of them changes it by a rule and
nothing else that a processor does changes it (`Heeds`). What the view shows after the first
half of a step is then what the rule makes of the bytes that arrived in it (`Heeds.acted`),
and likewise for a request that makes no step (`Heeds.perform`). If nothing else in a session
changes the view either, this holds of the session (`Records.session`).
-/

set_option autoImplicit false

namespace Handheld

/-- A byte that reaches an address space: the state it finds, its place, and the byte. -/
structure Arrival (β : Type) where
  bus : β
  place : Place
  value : UInt8

/-- An address space with the bytes that were stored to it, the earliest first. -/
structure Logged (β : Type) where
  bus : β
  arrivals : List (Arrival β)

variable {β : Type} [AddressSpace β]

instance : AddressSpace (Logged β) where
  resolve l := AddressSpace.resolve l.bus
  byte? l := AddressSpace.byte? l.bus
  load l := AddressSpace.load l.bus
  store l place value :=
    ⟨AddressSpace.store l.bus place value, l.arrivals ++ [⟨l.bus, place, value⟩]⟩
  trail l := AddressSpace.trail l.bus
  announce l := AddressSpace.announce l.bus
  romBank l := AddressSpace.romBank l.bus
  sync l cycles := { l with bus := AddressSpace.sync l.bus cycles }
  interruptFlag l := AddressSpace.interruptFlag l.bus
  setInterruptFlag l value := { l with bus := AddressSpace.setInterruptFlag l.bus value }
  interruptEnable l := AddressSpace.interruptEnable l.bus
  speedSwitchArmed l := AddressSpace.speedSwitchArmed l.bus
  setDoubleSpeed l double := { l with bus := AddressSpace.setDoubleSpeed l.bus double }

instance : AddressSpace.Encloses (Logged.bus : Logged β → β) := by
  constructor <;> intros <;> rfl

namespace System

omit [AddressSpace β] in
/-- The same processor, its stores logged from now on. -/
def logged (s : System β) : System (Logged β) := { s with bus := ⟨s.bus, []⟩ }

/-- The bytes that reach the address space while a processor works. -/
def arrivalsOf (s : System β) (work : System (Logged β) → System (Logged β)) : List (Arrival β) :=
  (work s.logged).bus.arrivals

/-- The bytes that arrive in a check for interrupts: the program counter is put on the stack if
a handler is called. -/
def arrivalsOfCheck (s : System β) : List (Arrival β) :=
  match s.dispatched with
  | some source =>
    (s.wake.withoutRequest source).arrivalsOf fun s => s.enterHandler source.vector
  | none => []

end System

namespace Machine

/-- The bytes that arrive while a step executes its instruction. -/
def arrivalsOfInstruction (m : Machine) : List (Arrival Hardware) :=
  let s := m.serviceInterrupts.1
  match m.executed with
  | some operation => (s.decode s.cpu.pc).1.arrivalsOf fun s => s.execute operation
  | none => []

/-- The bytes that arrive in a step, those of the check for interrupts before those of the
instruction. -/
def arrivalsOfStep (m : Machine) : List (Arrival Hardware) :=
  m.arrivalsOfCheck ++ m.arrivalsOfInstruction

/-- The bytes that arrive while a machine does what is asked for. -/
def arrivalsIn (m : Machine) : Request → List (Arrival Hardware)
  | .write address value => m.arrivalsOf fun s => s.write (m.resolve address) value
  | .execute operation => m.arrivalsOf fun s => s.execute operation
  | .serviceInterrupt vector => m.arrivalsOf fun s => s.enterHandler vector
  | .move destination source => m.arrivalsOf fun s => s.move destination source
  | request => (List.range (m.stepsOf request)).flatMap fun i => (m.after i).arrivalsOfStep

/-- The bytes that arrive in a session. -/
def arrivals (m : Machine) : List Request → List (Arrival Hardware)
  | [] => []
  | request :: requests => m.arrivalsIn request ++ (m.perform request).1.arrivals requests

end Machine

/-! ## Views that heed what arrives -/

/-- A view of the hardware that heeds the bytes that arrive: each of them changes it by
`react`, and nothing else that a processor does changes it. -/
structure Hardware.Heeds {α : Type} (view : Hardware → α) (react : α → Arrival Hardware → α) :
    Prop where
  store : ∀ hw place value, view (hw.store place value) = react (view hw) ⟨hw, place, value⟩
  sync : ∀ (hw : Hardware) now, view { hw with now } = view hw
  requests : ∀ hw value, view (hw.setStored .irq value) = view hw
  speed : ∀ hw value, view (hw.setStored .key1 value) = view hw

namespace Hardware.Heeds

open Handheld.System (Proceeds)

variable {α : Type} {view : Hardware → α} {react : α → Arrival Hardware → α}
  (heeds : Heeds view react)

include heeds

/-- What is added to the log is what the view has seen. -/
theorem proceeds {s s' : System (Logged Hardware)} {n : Nat} (proceeds : Proceeds s n s') :
    ∃ more, s'.bus.arrivals = s.bus.arrivals ++ more ∧
      view s'.bus.bus = more.foldl react (view s.bus.bus) := by
  -- Of all that a processor does only a store is logged, and only a store is seen.
  induction proceeds with
  | think _ bus | spend _ _ bus =>
    rw [bus]
    exact ⟨[], (List.append_nil _).symm, rfl⟩
  | @store s _ place value _ bus =>
    rw [bus]
    exact ⟨[⟨s.bus.bus, place, value⟩], rfl, heeds.store s.bus.bus place value⟩
  | @tick s _ cycles _ bus =>
    rw [bus]
    exact ⟨[], (List.append_nil _).symm, heeds.sync s.bus.bus _⟩
  | @takeBack s _ _ _ bus =>
    rw [bus]
    exact ⟨[], (List.append_nil _).symm, heeds.requests s.bus.bus _⟩
  | @switch s _ _ _ _ bus =>
    rw [bus]
    exact ⟨[], (List.append_nil _).symm, heeds.speed s.bus.bus _⟩
  | trans _ _ first second =>
    obtain ⟨earlier, logged, seen⟩ := first
    obtain ⟨later, loggedAfter, seenAfter⟩ := second
    refine ⟨earlier ++ later, ?_, ?_⟩
    · rw [loggedAfter, logged, List.append_assoc]
    · rw [seenAfter, seen, List.foldl_append]

/-- A processor does the same whether or not it is logged, so the view has seen what arrives
while it works. -/
theorem work {s t : System Hardware} {work : System (Logged Hardware) → System (Logged Hardware)}
    {n : Nat} (proceeds : Proceeds s.logged n (work s.logged))
    (same : (work s.logged).inside Logged.bus = t) :
    view t.bus = (s.arrivalsOf work).foldl react (view s.bus) := by
  obtain ⟨more, logged, seen⟩ := heeds.proceeds proceeds
  have all : s.arrivalsOf work = more := logged
  rw [all, ← same]
  exact seen

/-- In a write the view reacts to what arrives. -/
theorem write (s : System Hardware) (place : Place) (value : UInt8) :
    view (s.write place value).bus =
      (s.arrivalsOf fun s => s.write place value).foldl react (view s.bus) :=
  heeds.work ((Proceeds.refl s.logged).write place value) (s.logged.inside_write place value)

/-- In a move the view reacts to what arrives. -/
theorem move (s : System Hardware) (destination source : Place) :
    view (s.move destination source).bus =
      (s.arrivalsOf fun s => s.move destination source).foldl react (view s.bus) :=
  heeds.work ((Proceeds.refl s.logged).move destination source)
    (s.logged.inside_move destination source)

/-- In an operation the view reacts to what arrives. -/
theorem execute (s : System Hardware) (operation : Operation) :
    view (s.execute operation).bus =
      (s.arrivalsOf fun s => s.execute operation).foldl react (view s.bus) := by
  obtain ⟨_, -, proceeds⟩ := (Proceeds.refl s.logged).execute operation
  exact heeds.work proceeds (s.logged.inside_execute operation)

/-- On entering a handler the view reacts to what arrives. -/
theorem enterHandler (s : System Hardware) (vector : UInt16) :
    view (s.enterHandler vector).bus =
      (s.arrivalsOf fun s => s.enterHandler vector).foldl react (view s.bus) :=
  heeds.work ((Proceeds.refl s.logged).enterHandler vector) (s.logged.inside_enterHandler vector)

/-- In a check for interrupts the view reacts to what arrives. -/
theorem serviceInterrupts (s : System Hardware) :
    view s.serviceInterrupts.1.bus = s.arrivalsOfCheck.foldl react (view s.bus) := by
  unfold System.arrivalsOfCheck
  split
  next source urgent =>
    have takenBack : view (s.wake.withoutRequest source).bus = view s.bus :=
      heeds.requests s.bus _
    rw [System.serviceInterrupts_of_dispatched urgent, System.dispatch_eq_enterHandler,
      heeds.enterHandler, takenBack]
  next quiet =>
    rw [System.serviceInterrupts_bus_of_not_dispatched quiet]
    rfl

/-- The first half of a step shows the view what arrives in the step. -/
theorem acted {m : Machine} {s : System Hardware} (acts : m.acted = some s) :
    view s.bus = m.arrivalsOfStep.foldl react (view m.bus) := by
  rw [Machine.arrivalsOfStep, List.foldl_append, ← heeds.serviceInterrupts]
  unfold Machine.arrivalsOfInstruction
  cases executes : m.executed with
  | some operation =>
    obtain ⟨-, executed⟩ := Machine.acted_of_executed executes
    obtain rfl := Option.some.inj (acts.symm.trans executed)
    rw [heeds.execute, System.decode_bus]
  | none =>
    obtain stuck | waits := Machine.acted_of_not_executed executes
    · rw [stuck] at acts
      cases acts
    · obtain rfl := Option.some.inj (acts.symm.trans waits)
      rfl

/-- A machine that is stuck has checked for interrupts, and nothing else has arrived. -/
theorem stuck {m : Machine} (stuck : m.acted = none) :
    view m.step.1.bus = m.arrivalsOfStep.foldl react (view m.bus) := by
  have nothing : m.executed = none := by
    cases executes : m.executed with
    | none => rfl
    | some operation =>
      obtain ⟨-, acts⟩ := Machine.acted_of_executed executes
      rw [stuck] at acts
      cases acts
  -- The check for interrupts may have called a handler before the machine got stuck.
  rw [(Machine.step_of_not_acted stuck).2.2, Machine.arrivalsOfStep, Machine.arrivalsOfInstruction,
    nothing, List.append_nil]
  exact heeds.serviceInterrupts m.toSystem

/-- A request that makes no step, and no new start or exchange, shows the view what arrives. -/
theorem perform {m : Machine} {request : Request} (quiet : request.stepping = false)
    (kept : request.renews = false) :
    view (m.perform request).1.bus = (m.arrivalsIn request).foldl react (view m.bus) := by
  cases request with
  | step | run | stepFrame => cases quiet
  | reset | swap | install => cases kept
  | write address value => exact heeds.write m.toSystem (m.resolve address) value
  | execute operation => exact heeds.execute m.toSystem operation
  | serviceInterrupt vector => exact heeds.enterHandler m.toSystem vector
  | move destination source => exact heeds.move m.toSystem destination source
  | raiseInterrupt mask => exact heeds.requests m.bus _
  | decode address => exact congrArg view (System.decode_bus m.toSystem address)
  | mark place usage => exact congrArg view (System.mark_bus m.toSystem place usage)
  | markOrigin place usage => exact congrArg view (System.markOrigin_bus m.toSystem place usage)
  | read | requestQuit => rfl

end Hardware.Heeds

/-! ## Views that nothing else changes -/

/-- A view that heeds the bytes that arrive and that nothing else in a session changes: not
the devices that catch up, not a reset, and no exchange. -/
structure Hardware.Records {α : Type} (view : Hardware → α) (react : α → Arrival Hardware → α) :
    Prop extends Heeds view react where
  update : ∀ (hw : Hardware) now speed, view (hw.update now speed).1 = view hw
  hear : ∀ hw : Hardware, view { hw with rebootRequested := false } = view hw
  powerCycle : ∀ hw : Hardware, view hw.powerCycle = view hw
  postBoot : ∀ hw : Hardware, view hw.postBoot = view hw
  insert : ∀ (hw : Hardware) cartridge, view (hw.insert cartridge) = view hw
  install : ∀ (hw : Hardware) controller,
    view { hw with cartridge := hw.cartridge.install controller } = view hw

namespace Hardware.Records

open Machine (finishStep_bus)

variable {α : Type} {view : Hardware → α} {react : α → Arrival Hardware → α}
  (records : Records view react)

include records

/-- In a step the view reacts to what arrives. -/
theorem step (m : Machine) :
    view m.step.1.bus = m.arrivalsOfStep.foldl react (view m.bus) := by
  cases acts : m.acted with
  | some s =>
    rw [Machine.step_of_acted acts, finishStep_bus, records.hear, records.update]
    exact records.acted acts
  | none => exact records.stuck acts

/-- In any number of steps the view reacts to what arrives in turn. -/
theorem after (m : Machine) (k : Nat) :
    view (m.after k).bus =
      ((List.range k).flatMap fun i => (m.after i).arrivalsOfStep).foldl react (view m.bus) := by
  induction k with
  | zero => rfl
  | succ k ih =>
    rw [Machine.after_succ, records.step, ih, List.range_succ, List.flatMap_append,
      List.flatMap_singleton, List.foldl_append]

/-- A request that renews a part of the machine does not show in the view. -/
theorem renewed (m : Machine) {request : Request} (renews : request.renews = true) :
    view (m.perform request).1.bus = view m.bus := by
  cases request with
  | reset =>
    show view m.reset.bus = view m.bus
    obtain ⟨-, bus⟩ | ⟨-, bus⟩ := m.reset_outcome
    · rw [bus, records.powerCycle]
    · rw [bus, records.postBoot, records.powerCycle]
  | swap cartridge notes => exact records.insert m.bus cartridge
  | install controller => exact records.install m.bus controller
  | _ => cases renews

/-- In a request the view reacts to what arrives. -/
theorem perform (m : Machine) (request : Request) :
    view (m.perform request).1.bus = (m.arrivalsIn request).foldl react (view m.bus) := by
  cases steps : request.stepping with
  | true =>
    rw [m.perform_of_stepping steps, records.after]
    cases request with
    | step | run | stepFrame => rfl
    | _ => cases steps
  | false =>
    cases renews : request.renews with
    | true =>
      rw [records.renewed m renews]
      cases request with
      | reset | swap | install => rfl
      | _ => cases renews
    | false => exact records.toHeeds.perform steps renews

/-- After a session the view shows what its rule makes of the bytes that arrived. -/
theorem session (m : Machine) (requests : List Request) :
    view (m.session requests).1.bus = (m.arrivals requests).foldl react (view m.bus) := by
  induction requests generalizing m with
  | nil => rfl
  | cons request requests ih =>
    rw [Machine.arrivals, List.foldl_append, ← records.perform]
    exact ih (m.perform request).1

end Hardware.Records

end Handheld
