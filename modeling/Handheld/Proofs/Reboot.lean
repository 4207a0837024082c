import Handheld.Proofs.Arrivals

/-!
# A cartridge that asks to be started anew

A flash cartridge may answer a store by asking to be started anew. The hardware keeps this in
mind until the devices have caught up, and then the machine asks to quit: whichever way the byte
took, by an instruction or by the call of a handler, the step in which it arrived is the last one
(`quit_of_asksForReboot`). A machine that was asked to quit stays so until the next reset
(`quit_session`), and a run of it ends before it begins (`run_of_quit`).
-/

set_option autoImplicit false

namespace Handheld

namespace Hardware

/-- The request to start anew heeds the bytes that arrive: it is made by an answer of the
cartridge and taken back by none. -/
theorem heeds_rebootRequested :
    Heeds (fun hw => hw.rebootRequested) fun asked arrival =>
      asked || arrival.bus.cartridge.command arrival.place arrival.value == some .reboot where
  store := store_rebootRequested
  sync _ _ := rfl
  requests _ _ := rfl
  speed _ _ := rfl

/-- A request that was made, or that a byte on the list makes, stays. -/
theorem foldl_asked {arrivals : List (Arrival Hardware)} {asked : Bool}
    (made : asked = true ∨ ∃ arrival ∈ arrivals,
      arrival.bus.cartridge.command arrival.place arrival.value = some .reboot) :
    arrivals.foldl (fun asked arrival =>
      asked || arrival.bus.cartridge.command arrival.place arrival.value == some .reboot)
      asked = true := by
  -- Whoever asks first, the request is there for the rest of the list.
  induction arrivals generalizing asked with
  | nil =>
    obtain made | ⟨arrival, ⟨⟩, -⟩ := made
    exact made
  | cons first arrivals ih =>
    apply ih
    obtain made | ⟨arrival, mem, answer⟩ := made
    · rw [made]
      exact .inl rfl
    · obtain rfl | later := List.mem_cons.mp mem
      · exact .inl (Bool.or_eq_true_iff.mpr (.inr (beq_iff_eq.mpr answer)))
      · exact .inr ⟨arrival, later, answer⟩

/-- Catching up does not touch the reboot latch. -/
theorem update_rebootRequested (hw : Hardware) (now : UInt64) (speed : UInt8) :
    (hw.update now speed).1.rebootRequested = hw.rebootRequested := by
  rw [update_eq]
  exact (hw.withDevices_rest _).2.2

end Hardware

namespace Machine

open Hardware

/-- During the next step the cartridge answers a byte by asking to be started anew. -/
def AsksForReboot (m : Machine) : Prop :=
  ∃ arrival ∈ m.arrivalsOfStep,
    arrival.bus.cartridge.command arrival.place arrival.value = some .reboot

instance (m : Machine) : Decidable m.AsksForReboot :=
  inferInstanceAs (Decidable (∃ _ ∈ _, _))

/-! ## Asking to quit -/

/-- A step ends by asking to quit if someone had asked before it or the cartridge wants to be
started anew. -/
theorem finishStep_quit (s : System Hardware) (start : UInt64) (quit : Bool) :
    (finishStep s start quit).1.quit = (quit || s.bus.rebootRequested) := by
  rw [← s.bus.update_rebootRequested s.cpu.cycles s.cpu.speed]
  unfold finishStep
  dsimp only
  split
  next asked => rw [asked, Bool.or_true]
  next quiet => rw [Bool.eq_false_iff.mpr quiet, Bool.or_false]

/-- A machine that is stuck leaves the request to quit as it is. -/
theorem quit_of_not_acted {m : Machine} (stuck : m.acted = none) : m.step.1.quit = m.quit := by
  simp only [acted] at stuck
  simp only [step]
  split at stuck
  next => cases stuck
  next awake =>
    rw [if_neg awake]
    split at stuck
    next illegal => rw [if_pos illegal]
    next => cases stuck

/-- A step in which the cartridge asks to be started anew ends by asking to quit. -/
theorem quit_of_asksForReboot {m : Machine} {cycles : UInt32} (asks : m.AsksForReboot)
    (succeeds : m.step.2 = .ok cycles) : m.step.1.quit = true := by
  cases acts : m.acted with
  | some s =>
    have requested : s.bus.rebootRequested = true := by
      rw [heeds_rebootRequested.acted acts]
      exact foldl_asked (.inr asks)
    rw [step_of_acted acts, finishStep_quit, requested, Bool.or_true]
  | none =>
    obtain ⟨⟨error, fails⟩, -, -⟩ := step_of_not_acted acts
    rw [fails] at succeeds
    cases succeeds

/-! ## Until the next reset -/

/-- A step keeps the request to quit. -/
theorem quit_step {m : Machine} (asked : m.quit = true) : m.step.1.quit = true := by
  cases acts : m.acted with
  | some s => rw [step_of_acted acts, finishStep_quit, asked, Bool.true_or]
  | none => rw [quit_of_not_acted acts, asked]

/-- Any number of steps keep the request to quit. -/
theorem quit_after {m : Machine} (asked : m.quit = true) (k : Nat) : (m.after k).quit = true := by
  induction k with
  | zero => exact asked
  | succ k ih => exact quit_step ih

/-- Nothing but a reset takes back that someone asked to quit. -/
theorem quit_perform {m : Machine} {request : Request} (asked : m.quit = true)
    (goesOn : request ≠ .reset) : (m.perform request).1.quit = true := by
  cases steps : request.stepping with
  | true =>
    rw [m.perform_of_stepping steps]
    exact quit_after asked _
  | false =>
    cases request with
    | reset => exact absurd rfl goesOn
    | step | run | stepFrame => cases steps
    | requestQuit => rfl
    | _ => exact asked

/-- A session without a reset keeps the request to quit. -/
theorem quit_session {m : Machine} {requests : List Request} (asked : m.quit = true)
    (goesOn : .reset ∉ requests) : (m.session requests).1.quit = true := by
  induction requests generalizing m with
  | nil => exact asked
  | cons request requests ih =>
    rw [List.mem_cons, not_or] at goesOn
    exact ih (quit_perform asked (Ne.symm goesOn.1)) goesOn.2

/-- A run ends at once when it is asked to quit. -/
theorem runLoop_of_quit {m : Machine} (asked : m.quit = true) (limit : Option UInt64)
    (start : UInt64) : (runLoop limit start).before m = some .quit := by
  unfold runLoop
  exact if_pos asked

/-- A frame ends at once when it is asked to quit. -/
theorem frameLoop_of_quit {m : Machine} (asked : m.quit = true) (granted start : UInt64) :
    (frameLoop granted start).before m = some () := by
  unfold frameLoop
  exact if_pos (by rw [asked, Bool.true_or])

/-- A run of a machine that was asked to quit makes no step. -/
theorem run_of_quit {m : Machine} (asked : m.quit = true) (limit : Option UInt64) :
    m.run limit = (m, .ok .quit) ∧ m.stepsOf (.run limit) = 0 := by
  have before := runLoop_of_quit asked limit m.cpu.cycles
  exact ⟨(roundBy_runSteps limit m.cpu.cycles).ends _ before, Loop.count_of_ended before _⟩

/-- A step of a run or of a frame in which the cartridge asks to be started anew is the last one.
It ends by asking to quit, the run says so, and until the next reset every later run ends before
its first step, whatever else is asked of the machine in between. -/
theorem reboot_stops_program {m : Machine} {i : Nat} {cycles : UInt32}
    (asks : (m.after i).AsksForReboot) (succeeds : (m.after i).step.2 = .ok cycles) :
    let stopped := m.after (i + 1)
    stopped.quit = true ∧
    (∀ limit, i < m.stepsOf (.run limit) →
      m.run limit = (stopped, .ok .quit) ∧ m.stepsOf (.run limit) = i + 1) ∧
    (i < m.stepsOf .stepFrame →
      m.stepFrame = (stopped, .ok ()) ∧ m.stepsOf .stepFrame = i + 1) ∧
    ∀ requests, .reset ∉ requests → ∀ limit,
      let later := (stopped.session requests).1
      later.run limit = (later, .ok .quit) ∧ later.stepsOf (.run limit) = 0 := by
  intro stopped
  have asked : stopped.quit = true := quit_of_asksForReboot asks succeeds
  refine ⟨asked, ?_, ?_, ?_⟩
  · intro limit made
    exact (roundBy_runSteps limit m.cpu.cycles).ends_at made succeeds
      (runLoop_of_quit asked limit _) fun _ => nofun
  · intro made
    exact (roundBy_frameSteps m.frameCycles m.cpu.cycles).ends_at made succeeds
      (frameLoop_of_quit asked _ _) fun _ _ => rfl
  · intro requests goesOn limit later
    exact run_of_quit (quit_session asked goesOn) limit

/-- A flash cartridge whose window is open, under a boot program that asks it to start anew. -/
def rebooting : Machine :=
  let cartridge := { Cartridge.empty with controller := .flash { lock := .opened } }
  (assemble cartridge #[0x21, 0xE0, 0x7F, 0x36, 0x80]).reset

/-- The second step is the last one. Neither another cartridge nor another controller makes the
machine go on. -/
theorem reboot_stops_program_of_rebooting :
    let m := rebooting
    (m.after 1).AsksForReboot ∧ (m.after 1).step.2 = .ok 12 ∧
      m.run (some 100) = (m.after 2, .ok .quit) ∧ m.stepFrame = (m.after 2, .ok ()) ∧
      let later := ((m.after 2).session [.swap .empty {}, .install .none, .step]).1
      later.run none = (later, .ok .quit) := by
  intro m
  have asks : (m.after 1).AsksForReboot := by decide +kernel
  have succeeds : (m.after 1).step.2 = .ok 12 := by decide +kernel
  have run : 1 < m.stepsOf (.run (some 100)) := by decide +kernel
  have frame : 1 < m.stepsOf .stepFrame := by decide +kernel
  obtain ⟨-, runs, frames, later⟩ := reboot_stops_program asks succeeds
  have goesOn : Request.reset ∉ [.swap .empty {}, .install .none, .step] := by simp
  exact ⟨asks, succeeds, (runs _ run).1, (frames frame).1, (later _ goesOn none).1⟩

end Machine

end Handheld
