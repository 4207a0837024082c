import Handheld.Proofs.Independence.Processor
import Handheld.Proofs.Session

/-!
# Nothing a machine does depends on its ledger

Two machines have the same values if they differ at most in what is on record about
their bytes: the origins, and the usage records. Put to the same session, two such
machines give the same observations and end with the same values again. So the
bookkeeping can be looked at, changed or forgotten without any effect on a program.

A run is an induction on the steps it takes, a session one on its requests. Between
two requests the machines are compared by `Agree`, which also follows the events
that have been added to the two journals. It takes hardware to be the same by any
congruence, a relation that nothing that happens to a machine can tell from equality; here
the congruence is equality itself.
-/

set_option autoImplicit false

namespace Handheld

/-- A congruence of the hardware that whatever else happens to a machine keeps, too. -/
class Hardware.Congruence (Same : Hardware → Hardware → Prop) : Prop
    extends AddressSpace.Congruence Same where
  cartridge : ∀ {hw hw' : Hardware}, Same hw hw' → hw.cartridge = hw'.cartridge
  rebootRequested : ∀ {hw hw' : Hardware}, Same hw hw' → hw.rebootRequested = hw'.rebootRequested
  hasBootProgram : ∀ {hw hw' : Hardware}, Same hw hw' → hw.hasBootProgram = hw'.hasBootProgram
  update : ∀ {hw hw' : Hardware}, Same hw hw' → ∀ now speed,
    Same (hw.update now speed).1 (hw'.update now speed).1 ∧
      (hw.update now speed).2 = (hw'.update now speed).2
  hear : ∀ {hw hw' : Hardware}, Same hw hw' →
    Same { hw with rebootRequested := false } { hw' with rebootRequested := false }
  raise : ∀ {hw hw' : Hardware}, Same hw hw' → ∀ mask,
    Same (hw.raiseInterrupt mask) (hw'.raiseInterrupt mask)
  powerCycle : ∀ {hw hw' : Hardware}, Same hw hw' → Same hw.powerCycle hw'.powerCycle
  postBoot : ∀ {hw hw' : Hardware}, Same hw hw' → Same hw.postBoot hw'.postBoot
  insert : ∀ {hw hw' : Hardware}, Same hw hw' → ∀ cartridge,
    Same (hw.insert cartridge) (hw'.insert cartridge)
  install : ∀ {hw hw' : Hardware}, Same hw hw' → ∀ controller,
    Same { hw with cartridge := hw.cartridge.install controller }
      { hw' with cartridge := hw'.cartridge.install controller }

instance : Hardware.Congruence (@Eq Hardware) := by
  constructor <;> rintro hw _ rfl <;> intros <;> first | rfl | exact ⟨rfl, rfl⟩

namespace Machine

open Hardware (Congruence)

/-- A step ends as the devices say that have caught up. -/
theorem finishStep_of_update {s : System Hardware} {hw : Hardware} {frameDone : Bool}
    (caught : s.bus.update s.cpu.cycles s.cpu.speed = (hw, frameDone)) (start : UInt64)
    (quit : Bool) :
    finishStep s start quit =
      if hw.rebootRequested then
        ({ cpu := s.cpu, bus := { hw with rebootRequested := false }, ledger := s.ledger
           journal := s.journal.push .rebootRequested, quit := true, frameDone },
          (s.cpu.cycles - start).toUInt32)
      else
        ({ cpu := s.cpu, bus := hw, ledger := s.ledger, journal := s.journal, quit, frameDone },
          (s.cpu.cycles - start).toUInt32) := by
  unfold finishStep
  simp only [caught]

/-- The machines differ at most in what is on record about their bytes. The journal
tells about the past and is no part of the comparison. -/
structure SameValues (m m' : Machine) : Prop where
  cpu : m.cpu = m'.cpu
  bus : m.bus = m'.bus
  quit : m.quit = m'.quit
  frameDone : m.frameDone = m'.frameDone

/-- The machines agree but for what is on record about their bytes, and since the journals
were `past` and `past'` they had the same events. The hardware is compared by `Same`, and
the marks of a finished frame only if they are known to agree. -/
structure Agree (Same : Hardware → Hardware → Prop) (Known : Prop) (past past' : Journal)
    (m m' : Machine) : Prop where
  system : System.Agree Same past past' m.toSystem m'.toSystem
  quit : m.quit = m'.quit
  frameDone : Known → m.frameDone = m'.frameDone

/-- Machines with the same values agree from now on. -/
theorem SameValues.agree {m m' : Machine} (h : SameValues m m') :
    Agree Eq True m.journal m'.journal m m' where
  system := ⟨h.cpu, h.bus, #[], by simp, by simp⟩
  quit := h.quit
  frameDone := fun _ => h.frameDone

namespace Agree

variable {Same : Hardware → Hardware → Prop} {Known : Prop} {past past' : Journal} {m m' : Machine}

/-- Machines that agree have the same values. -/
theorem sameValues (h : Agree Eq True past past' m m') : SameValues m m' :=
  ⟨h.system.cpu, h.system.bus, h.quit, h.frameDone trivial⟩

/-- Less may be known than is. -/
theorem of_known (h : Agree Same Known past past' m m') {Less : Prop} (less : Less → Known) :
    Agree Same Less past past' m m' :=
  ⟨h.system, h.quit, fun known => h.frameDone (less known)⟩

/-- Machines that agree have spent the same cycles since any start. -/
theorem cyclesSince (h : Agree Same Known past past' m m') (start : UInt64) :
    m.cyclesSince start = m'.cyclesSince start := by
  simp only [Machine.cyclesSince, h.system.cpu]

/-- Machines that agree reach a limit together. -/
theorem limitReached (h : Agree Same Known past past' m m') (start : UInt64)
    (limit : Option UInt64) : m.limitReached start limit = m'.limitReached start limit := by
  cases limit with
  | none => rfl
  | some limit =>
    unfold Machine.limitReached
    rw [h.cyclesSince]

/-- An operation of the system that keeps systems in agreement keeps machines in agreement. -/
theorem within (h : Agree Same Known past past' m m') (f : System Hardware → System Hardware)
    (keeps : System.Agree Same past past' (f m.toSystem) (f m'.toSystem)) :
    Agree Same Known past past' (m.within f) (m'.within f) :=
  ⟨keeps, h.quit, h.frameDone⟩

variable [Congruence Same]

/-! ## What is read agrees -/

/-- Machines that agree give the same reads. -/
theorem read (h : Agree Same Known past past' m m') (address : UInt16) :
    m.read address = m'.read address := by
  simp only [Machine.read, h.system.resolve, h.system.load]

/-- Machines that agree print the same state. -/
theorem stateLine (h : Agree Same Known past past' m m') : m.stateLine = m'.stateLine := by
  unfold Machine.stateLine
  rw [h.system.cpu, Congruence.cartridge h.system.bus, h.read]

/-! ## Requests -/

/-- Writes keep machines in agreement. -/
theorem writeAt (h : Agree Same Known past past' m m') (address : UInt16) (value : UInt8) :
    Agree Same Known past past' (m.writeAt address value) (m'.writeAt address value) := by
  refine h.within _ ?_
  rw [h.system.resolve]
  exact h.system.write _ _

/-- Decoding has the same result, and keeps machines in agreement. -/
theorem decodeAt (h : Agree Same Known past past' m m') (address : UInt16) :
    (m.decodeAt address).2 = (m'.decodeAt address).2 ∧
      Agree Same Known past past' (m.decodeAt address).1 (m'.decodeAt address).1 := by
  obtain ⟨same, agree⟩ := h.system.decode address
  exact ⟨same, agree, h.quit, h.frameDone⟩

/-- A reset keeps machines in agreement. -/
theorem reset (h : Agree Same Known past past' m m') :
    Agree Same Known past past' m.reset m'.reset := by
  have cycled := Congruence.powerCycle h.system.bus
  have color : m.bus.powerCycle.color = m'.bus.powerCycle.color :=
    congrArg (fun cartridge => cartridge.header.color) (Congruence.cartridge h.system.bus)
  simp only [Machine.reset, Congruence.hasBootProgram cycled, color]
  split
  · exact ⟨h.system.reported #[] rfl cycled rfl rfl, rfl, h.frameDone⟩
  · exact ⟨h.system.reported #[] rfl (Congruence.postBoot cycled) rfl rfl, rfl, h.frameDone⟩

/-- Raising an interrupt keeps machines in agreement. -/
theorem raiseInterrupt (h : Agree Same Known past past' m m') (mask : UInt8) :
    Agree Same Known past past' (m.raiseInterrupt mask) (m'.raiseInterrupt mask) := by
  have raised := Congruence.raise h.system.bus mask
  have requested : (m.bus.raiseInterrupt mask).interruptFlag =
      (m'.bus.raiseInterrupt mask).interruptFlag := AddressSpace.Congruence.interruptFlag raised
  have enabled : (m.bus.raiseInterrupt mask).memories.interruptEnable =
      (m'.bus.raiseInterrupt mask).memories.interruptEnable :=
    AddressSpace.Congruence.interruptEnable raised
  refine ⟨h.system.reported #[] ?_ raised rfl rfl, h.quit, h.frameDone⟩
  simp only [Machine.raiseInterrupt, h.system.cpu, requested, enabled]

/-- Exchanging the cartridge hands out the same board, and keeps machines in agreement. -/
theorem swap (h : Agree Same Known past past' m m') (cartridge : Cartridge)
    (notes : CartridgeNotes) :
    (m.swap cartridge notes).2.1 = (m'.swap cartridge notes).2.1 ∧
      Agree Same Known past past' (m.swap cartridge notes).1 (m'.swap cartridge notes).1 := by
  have cpu : (m.swap cartridge notes).1.cpu = (m'.swap cartridge notes).1.cpu := by
    simp only [Machine.swap, h.system.cpu]
    rfl
  refine ⟨Congruence.cartridge h.system.bus, ?_, h.quit, h.frameDone⟩
  exact h.system.reported #[.cartridgeInserted _] cpu (Congruence.insert h.system.bus cartridge)
    rfl rfl

/-- Installing a controller keeps machines in agreement. -/
theorem install (h : Agree Same Known past past' m m') (controller : Controller) :
    Agree Same Known past past' (m.install controller) (m'.install controller) :=
  ⟨h.system.reported #[] h.system.cpu (Congruence.install h.system.bus controller) rfl rfl,
    h.quit, h.frameDone⟩

/-! ## Steps and runs -/

/-- The devices catch up alike, both machines are started anew or neither, and both have
finished a frame or neither. -/
theorem finishStep {s s' : System Hardware} (h : System.Agree Same past past' s s')
    (start : UInt64) (quit : Bool) :
    (Machine.finishStep s start quit).2 = (Machine.finishStep s' start quit).2 ∧
      Agree Same True past past' (Machine.finishStep s start quit).1
        (Machine.finishStep s' start quit).1 := by
  obtain ⟨updated, frames⟩ := Congruence.update h.bus s'.cpu.cycles s'.cpu.speed
  cases caught : s.bus.update s.cpu.cycles s.cpu.speed with
  | mk hw frame =>
    cases caught' : s'.bus.update s'.cpu.cycles s'.cpu.speed with
    | mk hw' frame' =>
      rw [← h.cpu, caught, h.cpu, caught'] at updated frames
      rw [finishStep_of_update caught, finishStep_of_update caught', h.cpu,
        Congruence.rebootRequested updated]
      split
      · have heard := Congruence.hear updated
        exact ⟨rfl, h.reported #[.rebootRequested] rfl heard rfl rfl, rfl, fun _ => frames⟩
      · exact ⟨rfl, h.reported #[] rfl updated rfl rfl, rfl, fun _ => frames⟩

/-- Once a step has been completed the marks of a finished frame agree. -/
theorem step (h : Agree Same Known past past' m m') :
    m.step.2 = m'.step.2 ∧
      Agree Same (Known ∨ ∃ spent, m.step.2 = .ok spent) past past' m.step.1 m'.step.1 := by
  have serviced := h.system.serviceInterrupts.2
  have decoded := serviced.decode m'.serviceInterrupts.1.cpu.pc
  simp only [Machine.step, serviced.cpu, h.system.cpu, h.quit, decoded.1]
  split
  · have finished := finishStep (serviced.spend 4) m'.cpu.cycles m'.quit
    exact ⟨by rw [finished.1], finished.2.of_known fun _ => trivial⟩
  · split
    · refine ⟨?_, decoded.2, rfl, ?_⟩
      · rw [AddressSpace.Congruence.read decoded.2.bus]
      · rintro (known | ⟨spent, completed⟩)
        · exact h.frameDone known
        · cases completed
    · have finished := finishStep (decoded.2.execute (m'.serviceInterrupts.1.decode
        m'.serviceInterrupts.1.cpu.pc).2) m'.cpu.cycles m'.quit
      exact ⟨by rw [finished.1], finished.2.of_known fun _ => trivial⟩

/-- A step has one outcome on both sides. -/
theorem step_eq (h : Agree Same Known past past' m m') :
    ∃ (next next' : Machine) (outcome : Except StepError UInt32),
      m.step = (next, outcome) ∧ m'.step = (next', outcome) ∧
        Agree Same (Known ∨ ∃ spent, outcome = .ok spent) past past' next next' := by
  obtain ⟨same, agree⟩ := h.step
  rw [same] at agree
  exact ⟨m.step.1, m'.step.1, m'.step.2, by rw [← same], rfl, agree⟩

/-- The induction is on the number of steps that may be taken. -/
theorem runSteps (limit : Option UInt64) (start : UInt64) (budget : Nat) {m m' : Machine}
    (h : Agree Same Known past past' m m') :
    (Machine.runSteps limit start budget m).2 = (Machine.runSteps limit start budget m').2 ∧
      Agree Same Known past past' (Machine.runSteps limit start budget m).1
        (Machine.runSteps limit start budget m').1 := by
  induction budget generalizing m m' with
  | zero =>
    unfold Machine.runSteps
    rw [h.quit]
    exact ⟨rfl, h⟩
  | succ budget ih =>
    obtain ⟨next, next', outcome, stepped, stepped', agree⟩ := h.step_eq
    unfold Machine.runSteps
    rw [h.quit, h.limitReached, stepped, stepped']
    split
    · exact ⟨rfl, h⟩
    · split
      · exact ⟨rfl, h⟩
      · cases outcome with
        | ok spent => exact ih (agree.of_known .inl)
        | error error => exact ⟨rfl, agree.of_known .inl⟩

/-- A run ends the same way, and keeps machines in agreement. -/
theorem run (h : Agree Same Known past past' m m') (limit : Option UInt64) :
    (m.run limit).2 = (m'.run limit).2 ∧
      Agree Same Known past past' (m.run limit).1 (m'.run limit).1 := by
  unfold Machine.run
  rw [h.system.cpu]
  exact runSteps _ _ _ h

/-- The induction is on the number of steps that may be taken. A mark of a finished frame is
only looked at after a step that has been completed. -/
theorem frameSteps (granted start : UInt64) (budget : Nat) {m m' : Machine}
    (h : Agree Same Known past past' m m') :
    (Machine.frameSteps granted start budget m).2 =
        (Machine.frameSteps granted start budget m').2 ∧
      Agree Same Known past past' (Machine.frameSteps granted start budget m).1
        (Machine.frameSteps granted start budget m').1 := by
  induction budget generalizing m m' with
  | zero => exact ⟨rfl, h⟩
  | succ budget ih =>
    obtain ⟨next, next', outcome, stepped, stepped', agree⟩ := h.step_eq
    unfold Machine.frameSteps
    rw [h.quit, h.cyclesSince, stepped, stepped']
    split
    · exact ⟨rfl, h⟩
    · cases outcome with
      | ok spent =>
        simp only [agree.frameDone (.inr ⟨spent, rfl⟩)]
        split
        · exact ⟨rfl, agree.of_known .inl⟩
        · exact ih (agree.of_known .inl)
      | error error => exact ⟨rfl, agree.of_known .inl⟩

/-- A frame ends the same way, and keeps machines in agreement. -/
theorem stepFrame (h : Agree Same Known past past' m m') :
    m.stepFrame.2 = m'.stepFrame.2 ∧
      Agree Same Known past past' m.stepFrame.1 m'.stepFrame.1 := by
  unfold Machine.stepFrame
  rw [h.system.cpu]
  exact frameSteps _ _ _ h

/-! ## Sessions -/

/-- Every request is answered alike, and keeps machines in agreement. -/
theorem perform (h : Agree Same Known past past' m m') (request : Request) :
    (m.perform request).2 = (m'.perform request).2 ∧
      Agree Same Known past past' (m.perform request).1 (m'.perform request).1 := by
  cases request with
  | reset => exact ⟨rfl, h.reset⟩
  | step => exact ⟨congrArg Reply.stepped h.step.1, h.step.2.of_known .inl⟩
  | run limit => exact ⟨congrArg Reply.stopped (h.run limit).1, (h.run limit).2⟩
  | stepFrame => exact ⟨congrArg Reply.framed h.stepFrame.1, h.stepFrame.2⟩
  | read address => exact ⟨congrArg Reply.byte (h.read address), h⟩
  | write address value => exact ⟨rfl, h.writeAt address value⟩
  | decode address =>
    exact ⟨congrArg Reply.decoded (h.decodeAt address).1, (h.decodeAt address).2⟩
  | execute operation =>
    exact ⟨rfl, h.within (fun s => s.execute operation) (h.system.execute operation)⟩
  | raiseInterrupt mask => exact ⟨rfl, h.raiseInterrupt mask⟩
  | serviceInterrupt vector =>
    exact ⟨rfl, h.within (fun s => s.enterHandler vector) (h.system.enterHandler vector)⟩
  | mark place usage =>
    exact ⟨rfl, h.within (fun s => s.mark place usage) (h.system.mark place usage)⟩
  | markOrigin place usage =>
    exact ⟨rfl, h.within (fun s => s.markOrigin place usage) (h.system.markOrigin place usage)⟩
  | move destination source =>
    have moved := h.system.move destination source
    exact ⟨rfl, h.within (fun s => s.move destination source) moved⟩
  | requestQuit => exact ⟨rfl, h.system, rfl, h.frameDone⟩
  | swap cartridge notes =>
    exact ⟨congrArg Reply.ejected (h.swap cartridge notes).1, (h.swap cartridge notes).2⟩
  | install controller => exact ⟨rfl, h.install controller⟩

/-- A completed step tells both machines whether a frame is finished. -/
theorem frameDone_of_completed (h : Agree Same Known past past' m m') {request : Request}
    {spent : UInt32} (completed : (m.perform request).2 = .stepped (.ok spent)) :
    (m.perform request).1.frameDone = (m'.perform request).1.frameDone := by
  cases request with
  | step => exact h.step.2.frameDone (.inr ⟨spent, Reply.stepped.inj completed⟩)
  | _ => cases completed

omit [Congruence Same] in
/-- The events up to now may be forgotten. -/
theorem fromNow (h : Agree Same Known past past' m m') :
    Agree Same Known m.journal m'.journal m m' where
  system := ⟨h.system.cpu, h.system.bus, #[], by simp, by simp⟩
  quit := h.quit
  frameDone := h.frameDone

/-- Replies, lines of state and events are observed alike; what left through the serial
interface depends on what is taken for the same hardware. -/
theorem observe (h : Agree Same Known m.journal m'.journal m m') (request : Request) :
    let seen := (m.observe request).2
    let seen' := (m'.observe request).2
    seen.reply = seen'.reply ∧ seen.stateLine = seen'.stateLine ∧ seen.events = seen'.events := by
  obtain ⟨reply, after⟩ := h.perform request
  obtain ⟨events, now, now'⟩ := after.system.journal
  have told : ∀ past : Journal, (past ++ events).extract past.size = events := by
    intro past
    simp
  refine ⟨reply, after.stateLine, ?_⟩
  simp only [Machine.observe, now, now', told]

end Agree

/-- Machines with the same values give the same observation of a request, and have
the same values after it. -/
theorem SameValues.observe {m m' : Machine} (h : SameValues m m') (request : Request) :
    (m.observe request).2 = (m'.observe request).2 ∧
      SameValues (m.observe request).1 (m'.observe request).1 := by
  obtain ⟨reply, stateLine, events⟩ := h.agree.observe request
  have after := (h.agree.perform request).2
  have output : (m.observe request).2.serialOutput = (m'.observe request).2.serialOutput :=
    congrArg (fun hw : Hardware => hw.serial.output) after.system.bus
  refine ⟨?_, after.sameValues⟩
  rw [Observation.mk.injEq]
  exact ⟨reply, output, stateLine, events⟩

/-- No observation of any session depends on what is on record about the bytes, and
neither do the values that the session leaves. -/
theorem session_observations_of_sameValues (m m' : Machine) (h : SameValues m m')
    (requests : List Request) :
    (m.session requests).2 = (m'.session requests).2 ∧
      SameValues (m.session requests).1 (m'.session requests).1 := by
  induction requests generalizing m m' with
  | nil => exact ⟨rfl, h⟩
  | cons request requests ih =>
    obtain ⟨observation, after⟩ := h.observe request
    obtain ⟨observations, last⟩ := ih _ _ after
    refine ⟨?_, last⟩
    simp only [Machine.session, observation, observations]

/-- A machine that knows of a data byte and one that knows of nothing cannot be told
apart by a program that starts, runs and is stopped. -/
theorem session_observations_of_one_mark :
    let m := assemble .empty #[]
    let m' := m.within fun s => s.mark (.wram 0) .data
    let requests := [.reset, .run (some 1000), .write 0xFF02 0x81, .stepFrame, .read 0xC000]
    m.ledger ≠ m'.ledger ∧ SameValues m m' ∧
      (m.session requests).2 = (m'.session requests).2 ∧
        SameValues (m.session requests).1 (m'.session requests).1 := by
  intro m m' requests
  have same : SameValues m m' := ⟨rfl, rfl, rfl, rfl⟩
  have differ : m.ledger.wram ≠ m'.ledger.wram := by decide
  exact ⟨fun h => differ (congrArg Ledger.wram h), same,
    session_observations_of_sameValues m m' same requests⟩

end Machine

end Handheld
