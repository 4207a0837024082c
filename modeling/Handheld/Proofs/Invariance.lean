import Mathlib.Logic.Relation
import Handheld.Proofs.Session
import Handheld.Proofs.Step

/-!
# What holds throughout a session

An invariant of a machine is a condition on its processor and its hardware. It has to
survive what can happen to a machine: the processor works, the devices catch up, an
interrupt is requested from outside, the cartridge or its controller is exchanged, and
everything starts again. Then it holds after any session that begins with a reset
(`Invariant.session`), through every step of its runs.

Some conditions are only upheld by work, and what resets and exchanges make of them is
another matter (`Upheld`). For a condition on the hardware alone it is enough that it
lasts (`Lasting`): the processor reaches the hardware by stores, the time, the requests and
the speed.

Some conditions hold only as long as the cycle counter behaves. The relation `R` says
how the counter is expected to pass on in every step and every other request.
-/

set_option autoImplicit false

namespace Handheld

namespace Hardware

/-! ## After a reset -/

/-- After a power cycle every register is zero. -/
theorem stored_powerCycle (hw : Hardware) (r : DeviceRegister) : hw.powerCycle.stored r = 0 := by
  cases r <;> rfl

/-- After a row of replacements a byte is the one that was put there last. -/
theorem get_foldl_setIfInBounds (entries : List (Nat × UInt8)) (io : Vector UInt8 0x80)
    (k : Fin 0x80) :
    (entries.foldl (fun io entry => io.setIfInBounds entry.1 entry.2) io).get k =
      entries.foldl (fun value entry => if entry.1 = k.val then entry.2 else value) (io.get k) := by
  induction entries generalizing io with
  | nil => rfl
  | cons entry entries ih =>
    have first : (io.setIfInBounds entry.1 entry.2).get k =
        if entry.1 = k.val then entry.2 else io.get k :=
      Vector.getElem_setIfInBounds k.isLt
    rw [List.foldl_cons, ih, first]
    rfl

/-- A finished boot program leaves the screen on and the boot image unmapped. -/
theorem stored_postBoot (hw : Hardware) (r : DeviceRegister) :
    hw.powerCycle.postBoot.stored r =
      match r with
      | .lcdc => 0x91
      | .boot => 0x01
      | _ => 0 := by
  refine (get_foldl_setIfInBounds postBootBytes hw.powerCycle.memories.io r.offset).trans ?_
  rw [show hw.powerCycle.memories.io.get r.offset = 0 from hw.stored_powerCycle r]
  cases r <;> rfl

end Hardware

/-- A request that starts the machine anew or exchanges a part of it. -/
def Request.renews : Request → Bool
  | .reset | .swap _ _ | .install _ => true
  | _ => false

/-! ## Conditions on the hardware -/

/-- A condition that outlasts whatever processor and devices do to the hardware. -/
structure Hardware.Lasting (P : Hardware → Prop) : Prop where
  store : ∀ {hw : Hardware}, P hw → ∀ place value, P (hw.store place value)
  sync : ∀ {hw : Hardware}, P hw → ∀ now, P { hw with now }
  requests : ∀ {hw : Hardware}, P hw → ∀ value, P (hw.setStored .irq value)
  speed : ∀ {hw : Hardware}, P hw → ∀ value, P (hw.setStored .key1 value)
  update : ∀ {hw : Hardware}, P hw → ∀ now speed, P (hw.update now speed).1
  hear : ∀ {hw : Hardware}, P hw → P { hw with rebootRequested := false }

namespace Hardware.Lasting

variable {P Q : Hardware → Prop}

/-- Two conditions that last do so together. -/
theorem and (first : Lasting P) (second : Lasting Q) : Lasting fun hw => P hw ∧ Q hw where
  store := by
    intro hw h place value
    exact ⟨first.store h.1 place value, second.store h.2 place value⟩
  sync := by
    intro hw h now
    exact ⟨first.sync h.1 now, second.sync h.2 now⟩
  requests := by
    intro hw h value
    exact ⟨first.requests h.1 value, second.requests h.2 value⟩
  speed := by
    intro hw h value
    exact ⟨first.speed h.1 value, second.speed h.2 value⟩
  update := by
    intro hw h now speed
    exact ⟨first.update h.1 now speed, second.update h.2 now speed⟩
  hear := by
    intro hw h
    exact ⟨first.hear h.1, second.hear h.2⟩

/-- Whatever a processor does leaves such a condition as it is. -/
theorem proceeds (lasting : Lasting P) {s s' : System Hardware} {n : Nat}
    (proceeds : System.Proceeds s n s') (h : P s.bus) : P s'.bus := by
  induction proceeds with
  | think _ bus | spend _ _ bus =>
    rw [bus]
    exact h
  | store place value _ bus =>
    rw [bus]
    exact lasting.store h place value
  | tick _ _ bus =>
    rw [bus]
    exact lasting.sync h _
  | takeBack _ _ bus =>
    rw [bus]
    exact lasting.requests h _
  | switch _ _ _ bus =>
    rw [bus]
    exact lasting.speed h _
  | trans _ _ first second => exact second (first h)

end Hardware.Lasting

namespace Machine

/-- With a boot program a reset leaves everything switched off and on, without one it leaves
what the program would have left. -/
theorem reset_outcome (m : Machine) :
    let cpu : Cpu := { color := m.bus.cartridge.header.color }
    (m.reset.cpu = cpu ∧ m.reset.bus = m.bus.powerCycle) ∨
      (m.reset.cpu = cpu.postBoot ∧ m.reset.bus = m.bus.powerCycle.postBoot) := by
  intro cpu
  unfold reset
  dsimp only
  split
  · exact .inl ⟨rfl, rfl⟩
  · exact .inr ⟨rfl, rfl⟩

/-- A reset leaves the cartridge and the boot image alone. -/
theorem reset_keeps (m : Machine) :
    m.reset.bus.cartridge = m.bus.cartridge ∧
      m.reset.bus.memories.boot = m.bus.memories.boot := by
  obtain ⟨-, bus⟩ | ⟨-, bus⟩ := m.reset_outcome
  · rw [bus]
    exact ⟨rfl, rfl⟩
  · rw [bus]
    exact ⟨rfl, rfl⟩

variable {R : UInt64 → UInt64 → Prop} {P : Cpu → Hardware → Prop}

/-! ## How the counter passes on -/

/-- One machine comes from the other by steps in which the counter passes on by `R`. -/
def Steps (R : UInt64 → UInt64 → Prop) : Machine → Machine → Prop :=
  Relation.ReflTransGen fun m next => next = m.step.1 ∧ R m.cpu.cycles next.cpu.cycles

/-- In a request the counter passes on by `R`; a run and a frame are looked at step by
step, and a reset may do with the counter what it likes. -/
def Passes (R : UInt64 → UInt64 → Prop) (m : Machine) : Request → Prop
  | .reset => True
  | .run limit => Steps R m (m.run limit).1
  | .stepFrame => Steps R m m.stepFrame.1
  | request => R m.cpu.cycles (m.perform request).1.cpu.cycles

/-- The counter passes on by `R` throughout a session. -/
def Along (R : UInt64 → UInt64 → Prop) (m : Machine) : List Request → Prop
  | [] => True
  | request :: requests => m.Passes R request ∧ (m.perform request).1.Along R requests

/-- A run takes steps. `Q` is what is known of the machine while some of the budget is left,
and it is known at the end of the run. -/
theorem runSteps_steps (Q : Nat → Machine → Prop)
    (each : ∀ budget m, Q (budget + 1) m →
      R m.cpu.cycles m.step.1.cpu.cycles ∧ Q budget m.step.1)
    (limit : Option UInt64) (start : UInt64) (budget : Nat) (m : Machine) (known : Q budget m) :
    Steps R m (runSteps limit start budget m).1 ∧
      ∃ left, Q left (runSteps limit start budget m).1 := by
  induction budget generalizing m with
  | zero => exact ⟨.refl, 0, known⟩
  | succ budget ih =>
    obtain ⟨passes, later⟩ := each budget m known
    obtain ⟨rest, atEnd⟩ := ih m.step.1 later
    generalize stepped : m.step = outcome at passes later rest atEnd
    have first : Steps R m outcome.1 := .single ⟨congrArg Prod.fst stepped.symm, passes⟩
    simp only [runSteps, stepped]
    split
    · exact ⟨.refl, _, known⟩
    · split
      · exact ⟨.refl, _, known⟩
      · obtain ⟨next, _ | _⟩ := outcome
        · exact ⟨first, _, later⟩
        · exact ⟨first.trans rest, atEnd⟩

/-- The steps of a frame are a path of steps, and keep a condition that each step keeps. -/
theorem frameSteps_steps (Q : Nat → Machine → Prop)
    (each : ∀ budget m, Q (budget + 1) m →
      R m.cpu.cycles m.step.1.cpu.cycles ∧ Q budget m.step.1)
    (granted start : UInt64) (budget : Nat) (m : Machine) (known : Q budget m) :
    Steps R m (frameSteps granted start budget m).1 ∧
      ∃ left, Q left (frameSteps granted start budget m).1 := by
  induction budget generalizing m with
  | zero => exact ⟨.refl, 0, known⟩
  | succ budget ih =>
    obtain ⟨passes, later⟩ := each budget m known
    obtain ⟨rest, atEnd⟩ := ih m.step.1 later
    generalize stepped : m.step = outcome at passes later rest atEnd
    have first : Steps R m outcome.1 := .single ⟨congrArg Prod.fst stepped.symm, passes⟩
    simp only [frameSteps, stepped]
    split
    · exact ⟨.refl, _, known⟩
    · obtain ⟨next, _ | _⟩ := outcome
      · exact ⟨first, _, later⟩
      · dsimp only
        split
        · exact ⟨first, _, later⟩
        · exact ⟨first.trans rest, atEnd⟩

/-- Where nothing is expected of the counter every session is as expected. -/
theorem along_of_always (always : ∀ before after, R before after) (m : Machine)
    (requests : List Request) : m.Along R requests := by
  have each : ∀ (_ : Nat) (m : Machine), True → R m.cpu.cycles m.step.1.cpu.cycles ∧ True := by
    intro _ m _
    exact ⟨always _ _, trivial⟩
  induction requests generalizing m with
  | nil => trivial
  | cons request requests ih =>
    refine ⟨?_, ih _⟩
    cases request with
    | reset => trivial
    | run limit => exact (runSteps_steps (fun _ _ => True) each limit _ _ m trivial).1
    | stepFrame => exact (frameSteps_steps (fun _ _ => True) each _ _ _ m trivial).1
    | _ => exact always _ _

/-! ## Conditions that work upholds -/

/-- A condition that the processor and the devices uphold while the counter passes on by
`R`. -/
structure Upheld (R : UInt64 → UInt64 → Prop) (P : Cpu → Hardware → Prop) : Prop where
  work : ∀ {s s' : System Hardware} {n : Nat}, System.Proceeds s n s' → n < 2 ^ 64 →
    R s.cpu.cycles s'.cpu.cycles → P s.cpu s.bus → P s'.cpu s'.bus
  catchUp : ∀ {cpu : Cpu} {bus : Hardware}, P cpu bus →
    P cpu (bus.update cpu.cycles cpu.speed).1
  hear : ∀ {cpu : Cpu} {bus : Hardware}, P cpu bus → P cpu { bus with rebootRequested := false }
  raise : ∀ {cpu : Cpu} {bus : Hardware}, P cpu bus → ∀ mask halted,
    P { cpu with halted } (bus.raiseInterrupt mask)

/-- A condition that lasts is upheld, whatever the counter does. -/
theorem upheld_of_lasting {Q : Hardware → Prop} (lasting : Hardware.Lasting Q) :
    Upheld R fun _ bus => Q bus where
  work := by
    intro s s' n proceeds _ _ h
    exact lasting.proceeds proceeds h
  catchUp := by
    intro cpu bus h
    exact lasting.update h _ _
  hear := by
    intro cpu bus h
    exact lasting.hear h
  raise := by
    intro cpu bus h mask halted
    exact lasting.requests h _

namespace Upheld

variable {m : Machine}

/-- A condition that is upheld holds after a step. -/
theorem step (up : Upheld R P) (passes : R m.cpu.cycles m.step.1.cpu.cycles)
    (h : P m.cpu m.bus) : P m.step.1.cpu m.step.1.bus := by
  cases acts : m.acted with
  | some s =>
    obtain ⟨n, short, proceeds⟩ := proceeds_of_acted acts
    rw [step_of_acted acts] at passes ⊢
    rw [finishStep_cpu] at passes ⊢
    rw [finishStep_bus]
    exact up.hear (up.catchUp (up.work proceeds (by omega) passes h))
  | none =>
    obtain ⟨n, short, proceeds⟩ := proceeds_of_not_acted acts
    exact up.work proceeds (by omega) passes h

/-- A condition that is upheld holds after any path of steps. -/
theorem steps (up : Upheld R P) {next : Machine} (path : Steps R m next)
    (h : P m.cpu m.bus) : P next.cpu next.bus := by
  induction path with
  | refl => exact h
  | tail _ last ih =>
    obtain ⟨rfl, passes⟩ := last
    exact up.step passes ih

/-- What a reset and an exchange come to has to be known. -/
theorem perform (up : Upheld R P) {request : Request} (passes : m.Passes R request)
    (h : P m.cpu m.bus)
    (renewed : request.renews = true → P (m.perform request).1.cpu (m.perform request).1.bus) :
    P (m.perform request).1.cpu (m.perform request).1.bus := by
  have idle : System.Proceeds m.toSystem 0 m.toSystem := .refl _
  have works : ∀ {n : Nat} {s : System Hardware}, System.Proceeds m.toSystem n s → n < 2 ^ 64 →
      R m.cpu.cycles s.cpu.cycles → P s.cpu s.bus := by
    intro n s proceeds short along
    exact up.work proceeds short along h
  cases request with
  | step => exact up.step passes h
  | run limit => exact up.steps passes h
  | stepFrame => exact up.steps passes h
  | read address => exact h
  | write address value => exact works (idle.write _ value) (by decide) passes
  | decode address => exact works (idle.decode address) (by decide) passes
  | execute operation =>
    have cheap := operation.cycles.toNat_lt
    have branch := operation.action.extra_le
    obtain ⟨more, few, executed⟩ := idle.execute operation
    exact works executed (by omega) passes
  | raiseInterrupt mask => exact up.raise h mask _
  | serviceInterrupt vector => exact works (idle.enterHandler vector) (by decide) passes
  | mark place usage => exact works (idle.mark place usage) (by decide) passes
  | markOrigin place usage => exact works (idle.markOrigin place usage) (by decide) passes
  | move destination source => exact works (idle.move destination source) (by decide) passes
  | requestQuit => exact h
  | reset | swap | install => exact renewed rfl

/-- A condition that is upheld, and that renewals keep, holds after a session. -/
theorem session (up : Upheld R P) {requests : List Request} (along : m.Along R requests)
    (renewed : ∀ request ∈ requests, request.renews = true → ∀ m : Machine, P m.cpu m.bus →
      P (m.perform request).1.cpu (m.perform request).1.bus)
    (h : P m.cpu m.bus) : P (m.session requests).1.cpu (m.session requests).1.bus := by
  induction requests generalizing m with
  | nil => exact h
  | cons request requests ih =>
    obtain ⟨passes, later⟩ := along
    apply ih later
    · intro next mem
      exact renewed next (List.mem_cons_of_mem _ mem)
    · apply up.perform passes h
      intro renews
      exact renewed request List.mem_cons_self renews m h

end Upheld

section Lasting

variable {m : Machine} {Q : Hardware → Prop}

/-- A condition that lasts holds after a request, if renewals keep it. -/
theorem perform_of_lasting (lasting : Hardware.Lasting Q) {request : Request} (h : Q m.bus)
    (renewed : request.renews = true → Q (m.perform request).1.bus) :
    Q (m.perform request).1.bus := by
  have along : m.Along (fun _ _ => True) [request] := along_of_always (fun _ _ => trivial) m _
  exact (upheld_of_lasting lasting).perform along.1 h renewed

/-- A condition that lasts holds after a session, if renewals keep it. -/
theorem session_of_lasting (lasting : Hardware.Lasting Q) {requests : List Request}
    (renewed : ∀ request ∈ requests, request.renews = true → ∀ m : Machine, Q m.bus →
      Q (m.perform request).1.bus)
    (h : Q m.bus) : Q (m.session requests).1.bus := by
  have along : m.Along (fun _ _ => True) requests := along_of_always (fun _ _ => trivial) m _
  exact (upheld_of_lasting lasting).session along renewed h

end Lasting

/-! ## Invariants -/

/-- A condition that survives all that can happen to a machine while the counter passes
on by `R`. -/
structure Invariant (R : UInt64 → UInt64 → Prop) (P : Cpu → Hardware → Prop) : Prop
    extends Upheld R P where
  insert : ∀ {cpu : Cpu} {bus : Hardware}, P cpu bus → ∀ cartridge : Cartridge,
    P { cpu with color := cartridge.header.color } (bus.insert cartridge)
  install : ∀ {cpu : Cpu} {bus : Hardware}, P cpu bus → ∀ controller,
    P cpu { bus with cartridge := bus.cartridge.install controller }
  reset : ∀ m : Machine, P m.reset.cpu m.reset.bus

namespace Invariant

/-- An invariant is kept by renewals. -/
theorem renewed (inv : Invariant R P) (request : Request) (renews : request.renews = true)
    (m : Machine) (h : P m.cpu m.bus) :
    P (m.perform request).1.cpu (m.perform request).1.bus := by
  cases request with
  | reset => exact inv.reset m
  | swap cartridge notes => exact inv.insert h cartridge
  | install controller => exact inv.install h controller
  | _ => cases renews

/-- An invariant holds after a session. -/
theorem session (inv : Invariant R P) {m : Machine} {requests : List Request}
    (along : m.Along R requests) (h : P m.cpu m.bus) :
    P (m.session requests).1.cpu (m.session requests).1.bus :=
  inv.toUpheld.session along (fun request _ => inv.renewed request) h

end Invariant

end Machine

end Handheld
