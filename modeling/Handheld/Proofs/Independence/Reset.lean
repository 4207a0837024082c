import Handheld.Proofs.Independence.Serial

/-!
# A reset forgets the past

A reset keeps the cartridge and the boot image. Three more things it does not clear: what
left through the serial interface, the times of the last transfer, and the mark of a
finished frame. The first is never looked at, the second not before the next transfer sets
it, and the third not before a completed step sets it. So whatever was run on two machines
with the same cartridge and the same boot image, after a reset nobody can tell them apart
but by the bytes that left before.
-/

set_option autoImplicit false

namespace Handheld

/-- The observation of a machine through which some bytes had left before. -/
def Observation.after (past : Array UInt8) (seen : Observation) : Observation :=
  { seen with serialOutput := past ++ seen.serialOutput }

/-- An observation of a step that has been completed. -/
def Observation.IsCompletedStep (seen : Observation) : Prop :=
  ∃ spent, seen.reply = .stepped (.ok spent)

namespace Machine

open Hardware (Congruence)

variable {past past' : Array UInt8} {Known : Prop} {m m' : Machine}

/-- With the same cartridge and the same boot image two machines agree after a reset. -/
theorem agree_reset (cartridge : m.bus.cartridge = m'.bus.cartridge)
    (boot : m.bus.memories.boot = m'.bus.memories.boot) :
    Agree (Hardware.Alike m.serialOutput m'.serialOutput) (m.frameDone = m'.frameDone)
      m.reset.journal m'.reset.journal m.reset m'.reset := by
  have idle := SerialInterface.alike_cancel m.bus.serial m'.bus.serial
  have cycled : Hardware.Alike m.serialOutput m'.serialOutput m.bus.powerCycle
      m'.bus.powerCycle := by
    refine ⟨?_, idle⟩
    unfold Hardware.powerCycle
    rw [cartridge, boot]
  have color : m.bus.powerCycle.color = m'.bus.powerCycle.color :=
    congrArg (fun cartridge => cartridge.header.color) cartridge
  simp only [reset, Congruence.hasBootProgram cycled, color]
  split
  · exact ⟨⟨rfl, cycled, #[], by simp, by simp⟩, rfl, id⟩
  · exact ⟨⟨rfl, Congruence.postBoot cycled, #[], by simp, by simp⟩, rfl, id⟩

/-- One request: what is seen of it is the same but for the bytes that left before, and after a
completed step both machines know whether a frame is finished. -/
theorem Agree.observe_alike (h : Agree (Hardware.Alike past past') Known m.journal m'.journal m m')
    (request : Request) :
    (∃ common : Observation, (m.observe request).2 = common.after past ∧
      (m'.observe request).2 = common.after past') ∧
    Agree (Hardware.Alike past past') (Known ∨ (m.observe request).2.IsCompletedStep)
      (m.observe request).1.journal (m'.observe request).1.journal (m.observe request).1
      (m'.observe request).1 := by
  obtain ⟨reply, stateLine, events⟩ := h.observe request
  have after := (h.perform request).2
  constructor
  · obtain ⟨sent, output, output'⟩ := after.system.bus.serial.output
    refine ⟨{ (m.observe request).2 with serialOutput := sent }, ?_, ?_⟩
    · exact congrArg (fun output => { (m.observe request).2 with serialOutput := output }) output
    · rw [Observation.after, Observation.mk.injEq]
      exact ⟨reply.symm, output', stateLine.symm, events.symm⟩
  · have more : Agree (Hardware.Alike past past') (Known ∨ (m.observe request).2.IsCompletedStep)
        m.journal m'.journal (m.observe request).1 (m'.observe request).1 := by
      refine ⟨after.system, after.quit, ?_⟩
      rintro (known | ⟨spent, completed⟩)
      · exact after.frameDone known
      · exact h.frameDone_of_completed completed
    exact more.fromNow

/-- The induction is on the requests; what is known of the marks of a finished frame grows
along the session. -/
theorem Agree.session_alike (requests : List Request)
    (h : Agree (Hardware.Alike past past') Known m.journal m'.journal m m') :
    (∃ common : List Observation, (m.session requests).2 = common.map (Observation.after past) ∧
      (m'.session requests).2 = common.map (Observation.after past')) ∧
    Agree (Hardware.Alike past past')
      (Known ∨ ∃ seen ∈ (m.session requests).2, seen.IsCompletedStep)
      (m.session requests).1.journal (m'.session requests).1.journal (m.session requests).1
      (m'.session requests).1 := by
  induction requests generalizing m m' Known with
  | nil =>
    refine ⟨⟨[], rfl, rfl⟩, h.of_known ?_⟩
    rintro (known | ⟨seen, none, -⟩)
    · exact known
    · cases none
  | cons request requests ih =>
    obtain ⟨⟨first, same, same'⟩, after⟩ := h.observe_alike request
    obtain ⟨⟨later, observed, observed'⟩, last⟩ := ih after
    refine ⟨⟨first :: later, ?_, ?_⟩, last.of_known ?_⟩
    · simp only [session, same, observed, List.map_cons]
    · simp only [session, same', observed', List.map_cons]
    · rintro (known | ⟨seen, found, completed⟩)
      · exact .inl (.inl known)
      · obtain rfl | among := List.mem_cons.mp found
        · exact .inl (.inr completed)
        · exact .inr ⟨seen, among, completed⟩

/-- After a reset two machines with the same cartridge and the same boot image answer every
request alike, whatever was run on them before, and end alike: the processor and the
hardware are the same but for what left through the serial interface before the reset and,
between two transfers, the times of the last one. The mark of a finished frame is the same,
too, if it was before or if a step has been completed since. -/
theorem reset_forgets (m m' : Machine) (cartridge : m.bus.cartridge = m'.bus.cartridge)
    (boot : m.bus.memories.boot = m'.bus.memories.boot) (requests : List Request) :
    let last := (m.reset.session requests).1
    let last' := (m'.reset.session requests).1
    (∃ common : List Observation,
      (m.reset.session requests).2 = common.map (Observation.after m.serialOutput) ∧
      (m'.reset.session requests).2 = common.map (Observation.after m'.serialOutput)) ∧
    last.cpu = last'.cpu ∧ last.quit = last'.quit ∧
    last.bus.Alike m.serialOutput m'.serialOutput last'.bus ∧
    ((m.frameDone = m'.frameDone ∨
        ∃ seen ∈ (m.reset.session requests).2, seen.IsCompletedStep) →
      last.frameDone = last'.frameDone) := by
  intro last last'
  obtain ⟨observed, ends⟩ := (agree_reset cartridge boot).session_alike requests
  exact ⟨observed, ends.system.cpu, ends.quit, ends.system.bus, ends.frameDone⟩

/-- A machine in the midst of everything: at double speed and asked to quit, with a finished
frame, a transfer under way, a byte captured and a request to be started anew. -/
def interrupted : Machine :=
  let serial : SerialInterface :=
    { bitsLeft := 5, nextBit := 4608, bitTime := 512, output := #[0x41] }
  { cpu := { speed := 2, cycles := 4096, halted := true }
    bus := { Hardware.assemble .empty #[] with serial, now := 4096, rebootRequested := true }
    quit := true
    frameDone := true }

/-- It cannot be told from a new machine after a reset, but by the byte captured. -/
theorem reset_forgets_interruption :
    let new := assemble .empty #[]
    let requests := [.write 0xFF01 0x42, .write 0xFF02 0x81, .run (some 100), .reset, .stepFrame]
    interrupted.bus.cartridge = new.bus.cartridge ∧
      interrupted.bus.memories.boot = new.bus.memories.boot ∧
      interrupted.serialOutput = #[0x41] ∧ new.serialOutput = #[] ∧
      ∃ common : List Observation,
        (interrupted.reset.session requests).2 =
            common.map (Observation.after interrupted.serialOutput) ∧
          (new.reset.session requests).2 = common.map (Observation.after new.serialOutput) := by
  intro new requests
  exact ⟨rfl, rfl, rfl, rfl, (reset_forgets interrupted new rfl rfl requests).1⟩

end Machine

end Handheld
