import Handheld.Proofs.Modes
import Handheld.Proofs.Waiting

/-!
# Runs come to an end

A run and a frame are loops over steps: before each step they look whether it is time to
stop, and a frame also looks after it. A `Loop` says what they look at, and nothing about how
many steps they may take. `Takes` says that a loop comes to an end after so many steps, and in
what state, so that a loop which went on for ever would take no number of steps.

* A step that succeeds takes between four and 44 cycles, so a loop that stops when the cycles
  granted have gone by ends (`Grants.takes`), and what has gone by then is less than 44 more
  than granted (`Grants.gone_lt`).
* The budgets that the run and the frame count down are enough for this, so both of them end
  where their loops do (`run_takes`, `stepFrame_takes`).
-/

set_option autoImplicit false

namespace Handheld

namespace Machine

/-! ## What a step takes -/

/-- A step that succeeds takes the cycles that it reports, between four and 44. -/
theorem cost_of_step {m : Machine} {cycles : UInt32} (stepped : m.step.2 = .ok cycles) :
    (4 ∣ cycles.toNat ∧ 4 ≤ cycles.toNat ∧ cycles.toNat ≤ 44) ∧
      m.step.1.cpu.cycles = m.cpu.cycles + cycles.toUInt64 := by
  cases acts : m.acted with
  | none =>
    obtain ⟨⟨error, fails⟩, -, -⟩ := step_of_not_acted acts
    rw [fails] at stepped
    contradiction
  | some s =>
    obtain ⟨n, cost, proceeds⟩ := cost_of_acted acts
    have later := proceeds.cycles_eq
    rw [step_of_acted acts] at stepped ⊢
    have shown : (finishStep s m.cpu.cycles m.quit).2 = cycles := Except.ok.inj stepped
    have reported : cycles.toNat = n := by
      rw [← shown, finishStep_spent]
      exact toNat_reported (by omega) later
    rw [reported]
    refine ⟨cost, ?_⟩
    rw [finishStep_cpu, later, ← reported, UInt64.ofNat_uInt32ToNat]

/-- A step that fails takes at most 20 cycles. -/
theorem cost_of_failure {m : Machine} {error : StepError} (failed : m.step.2 = .error error) :
    ∃ n ≤ 20, m.step.1.cpu.cycles = m.cpu.cycles + UInt64.ofNat n := by
  cases acts : m.acted with
  | none =>
    obtain ⟨n, few, proceeds⟩ := proceeds_of_not_acted acts
    exact ⟨n, few, proceeds.cycles_eq⟩
  | some s =>
    rw [step_of_acted acts] at failed
    contradiction

/-- The cycles that have gone by since the counter showed `start`. -/
def gone (m : Machine) (start : UInt64) : Nat := (m.cyclesSince start).toNat

/-- At the start no cycles are gone. -/
theorem gone_start (m : Machine) : m.gone m.cpu.cycles = 0 := by
  unfold gone cyclesSince
  rw [UInt64.sub_self]
  rfl

/-- Later the cycles in between are gone as well, as long as the counter has room. -/
theorem gone_later {m next : Machine} {n : Nat} (start : UInt64)
    (later : next.cpu.cycles = m.cpu.cycles + UInt64.ofNat n) (room : m.gone start + n < 2 ^ 64) :
    next.gone start = m.gone start + n := by
  have since : next.cyclesSince start = m.cyclesSince start + UInt64.ofNat n := by
    unfold cyclesSince
    rw [later]
    grind
  unfold gone at *
  rw [since, toNat_add_cycles room]

/-- After a step its cycles are gone as well. -/
theorem gone_of_step {m : Machine} {cycles : UInt32} (start : UInt64)
    (stepped : m.step.2 = .ok cycles) (room : m.gone start + 44 < 2 ^ 64) :
    m.step.1.gone start = m.gone start + cycles.toNat := by
  obtain ⟨⟨-, -, most⟩, later⟩ := cost_of_step stepped
  rw [← UInt64.ofNat_uInt32ToNat] at later
  exact gone_later start later (by omega)

/-- What the counter shows is `start` and the cycles that have gone by since. -/
theorem cycles_eq_gone (m : Machine) (start : UInt64) :
    m.cpu.cycles = start + UInt64.ofNat (m.gone start) := by
  unfold gone cyclesSince
  rw [UInt64.ofNat_toNat, UInt64.add_comm, UInt64.sub_add_cancel]

/-! ## Loops over steps -/

/-- What a loop over steps looks at before a step and after one that succeeded: nothing if it
goes on, and otherwise what it ends with. -/
structure Loop (α : Type) where
  before : Machine → Option α
  after : Machine → Option α

namespace Loop

variable {α : Type} {loop : Loop α} {m : Machine} {n : Nat}
  {outcome : Machine × Except StepError α}

/-- From a machine on, a loop ends after a number of steps, and with what. -/
inductive Takes (loop : Loop α) : Machine → Nat → Machine × Except StepError α → Prop where
  | ends {m : Machine} {result : α} (finished : loop.before m = some result) :
    Takes loop m 0 (m, .ok result)
  | fails {m : Machine} {error : StepError} (going : loop.before m = none)
    (failed : m.step.2 = .error error) : Takes loop m 1 (m.step.1, .error error)
  | leaves {m : Machine} {cycles : UInt32} {result : α} (going : loop.before m = none)
    (stepped : m.step.2 = .ok cycles) (finished : loop.after m.step.1 = some result) :
    Takes loop m 1 (m.step.1, .ok result)
  | goesOn {m : Machine} {cycles : UInt32} {n : Nat} {outcome : Machine × Except StepError α}
    (going : loop.before m = none) (stepped : m.step.2 = .ok cycles)
    (more : loop.after m.step.1 = none) (rest : Takes loop m.step.1 n outcome) :
    Takes loop m (n + 1) outcome

/-- What a loop ends with is what it has seen last. -/
theorem Takes.seen {result : α} (takes : loop.Takes m n outcome) (ended : outcome.2 = .ok result) :
    loop.before outcome.1 = some result ∨ loop.after outcome.1 = some result := by
  induction takes with
  | ends finished =>
    cases ended
    exact .inl finished
  | fails => contradiction
  | leaves _ _ finished =>
    cases ended
    exact .inr finished
  | goesOn _ _ _ _ ih => exact ih ended

/-- A loop does not go on once the cycles granted since `start` have gone by. -/
def Grants (loop : Loop α) (granted : Nat) (start : UInt64) : Prop :=
  ∀ m : Machine, loop.before m = none → m.gone start < granted

namespace Grants

variable {granted : Nat} {start : UInt64}

/-- Such a loop ends, since each step uses up four of the cycles at least. -/
theorem takes (grants : loop.Grants granted start) (room : granted + 44 < 2 ^ 64) (m : Machine) :
    ∃ n ≤ (granted - m.gone start + 3) / 4, ∃ outcome, loop.Takes m n outcome := by
  induction left : granted - m.gone start using Nat.strong_induction_on generalizing m with
  | h left ih =>
    cases finished : loop.before m with
    | some result => exact ⟨0, Nat.zero_le _, _, .ends finished⟩
    | none =>
      have early := grants m finished
      cases stepped : m.step.2 with
      | error error => exact ⟨1, by omega, _, .fails finished stepped⟩
      | ok cycles =>
        obtain ⟨⟨-, least, -⟩, -⟩ := cost_of_step stepped
        have further := gone_of_step start stepped (by omega)
        cases done : loop.after m.step.1 with
        | some result => exact ⟨1, by omega, _, .leaves finished stepped done⟩
        | none =>
          obtain ⟨n, few, outcome, takes⟩ := ih _ (by omega) m.step.1 rfl
          exact ⟨n + 1, by omega, outcome, .goesOn finished stepped done takes⟩

/-- The last step began before the cycles granted had gone by. -/
theorem gone_lt (grants : loop.Grants granted start) (room : granted + 44 < 2 ^ 64)
    (takes : loop.Takes m n outcome) (early : m.gone start < granted + 44) :
    outcome.1.gone start < granted + 44 := by
  induction takes with
  | ends => exact early
  | @fails m error going failed =>
    have before := grants m going
    obtain ⟨n, few, later⟩ := cost_of_failure failed
    have further := gone_later start later (by omega)
    show m.step.1.gone start < granted + 44
    omega
  | @leaves m cycles result going stepped finished =>
    have before := grants m going
    obtain ⟨⟨-, -, most⟩, -⟩ := cost_of_step stepped
    have further := gone_of_step start stepped (by omega)
    show m.step.1.gone start < granted + 44
    omega
  | @goesOn m cycles n outcome going stepped more rest ih =>
    have before := grants m going
    obtain ⟨⟨-, -, most⟩, -⟩ := cost_of_step stepped
    have further := gone_of_step start stepped (by omega)
    exact ih (by omega)

end Grants

/-- A function goes round a loop for as long as its budget of steps lasts. -/
structure RoundBy (loop : Loop α) (f : Nat → Machine → Machine × Except StepError α) : Prop where
  ends : ∀ {m : Machine} {result : α} (budget : Nat), loop.before m = some result →
    f budget m = (m, .ok result)
  fails : ∀ {m : Machine} {error : StepError} (budget : Nat), loop.before m = none →
    m.step.2 = .error error → f (budget + 1) m = (m.step.1, .error error)
  leaves : ∀ {m : Machine} {cycles : UInt32} {result : α} (budget : Nat), loop.before m = none →
    m.step.2 = .ok cycles → loop.after m.step.1 = some result →
    f (budget + 1) m = (m.step.1, .ok result)
  goesOn : ∀ {m : Machine} {cycles : UInt32} (budget : Nat), loop.before m = none →
    m.step.2 = .ok cycles → loop.after m.step.1 = none → f (budget + 1) m = f budget m.step.1

namespace RoundBy

variable {f : Nat → Machine → Machine × Except StepError α}

/-- With budget enough the function ends as the loop does. -/
theorem eq_of_takes (round : loop.RoundBy f) (takes : loop.Takes m n outcome) {budget : Nat}
    (enough : n ≤ budget) : f budget m = outcome := by
  induction takes generalizing budget with
  | ends finished => exact round.ends budget finished
  | fails going failed =>
    obtain ⟨left, rfl⟩ := Nat.exists_eq_add_of_le' enough
    exact round.fails left going failed
  | leaves going stepped finished =>
    obtain ⟨left, rfl⟩ := Nat.exists_eq_add_of_le' enough
    exact round.leaves left going stepped finished
  | goesOn going stepped more rest ih =>
    obtain ⟨left, rfl⟩ := Nat.exists_eq_add_of_le' (Nat.le_trans (Nat.le_add_left 1 _) enough)
    rw [round.goesOn left going stepped more]
    exact ih (by omega)

/-- A budget of a quarter of the cycles granted is enough. -/
theorem takes (round : loop.RoundBy f) {granted : UInt64} {start : UInt64}
    (grants : loop.Grants granted.toNat start) (room : granted.toNat + 44 < 2 ^ 64)
    (m : Machine) : ∃ n, loop.Takes m n (f (stepBudget (some granted)) m) := by
  obtain ⟨n, few, outcome, takes⟩ := grants.takes room m
  have enough : n ≤ stepBudget (some granted) := by
    show n ≤ (granted.toNat + 3) / 4
    omega
  rw [round.eq_of_takes takes enough]
  exact ⟨n, takes⟩

end RoundBy

end Loop

/-! ## The run -/

/-- A run stops when someone asked to quit or the limit has been reached. -/
def runLoop (limit : Option UInt64) (start : UInt64) : Loop StopReason where
  before m :=
    if m.quit then some .quit
    else if m.limitReached start limit then some .cycleLimit
    else none
  after _ := none

/-- A run goes on only if nobody asks to quit and its limit is not reached. -/
theorem runLoop_before_eq_none {limit : Option UInt64} {start : UInt64} {m : Machine}
    (going : (runLoop limit start).before m = none) :
    m.quit = false ∧ m.limitReached start limit = false := by
  unfold runLoop at going
  grind

/-- A run that ends with its limit has reached it. -/
theorem runLoop_before_eq_limit {limit : Option UInt64} {start : UInt64} {m : Machine}
    (finished : (runLoop limit start).before m = some .cycleLimit) :
    m.limitReached start limit = true := by
  unfold runLoop at finished
  grind

/-- A limit is reached exactly when as many cycles are gone. -/
theorem limitReached_iff {m : Machine} {start limit : UInt64} :
    m.limitReached start (some limit) = true ↔ limit.toNat ≤ m.gone start := by
  unfold limitReached gone
  rw [decide_eq_true_iff, UInt64.le_iff_toNat_le]

/-- A run grants its limit. -/
theorem runLoop_grants (limit start : UInt64) :
    (runLoop (some limit) start).Grants limit.toNat start := by
  intro m going
  obtain ⟨-, early⟩ := runLoop_before_eq_none going
  rw [Bool.eq_false_iff, ne_eq, limitReached_iff] at early
  omega

/-- The steps of a run go round its loop. -/
theorem roundBy_runSteps (limit : Option UInt64) (start : UInt64) :
    (runLoop limit start).RoundBy (runSteps limit start) where
  ends := by
    intro m result budget finished
    have seen : (if m.quit then some StopReason.quit
      else if m.limitReached start limit then some .cycleLimit else none) = some result := finished
    cases budget <;> simp only [runSteps] <;> grind
  fails := by
    intro m error budget going failed
    obtain ⟨calm, early⟩ := runLoop_before_eq_none going
    simp only [runSteps, calm, early, Bool.false_eq_true, if_false]
    grind
  leaves := by
    intro m cycles result budget going stepped finished
    contradiction
  goesOn := by
    intro m cycles budget going stepped more
    obtain ⟨calm, early⟩ := runLoop_before_eq_none going
    simp only [runSteps, calm, early, Bool.false_eq_true, if_false]
    grind

/-- A run under a limit ends where its loop does. -/
theorem run_takes (m : Machine) {limit : UInt64} (room : limit.toNat + 44 < 2 ^ 64) :
    ∃ n, (runLoop (some limit) m.cpu.cycles).Takes m n (m.run (some limit)) :=
  (roundBy_runSteps (some limit) m.cpu.cycles).takes (runLoop_grants limit m.cpu.cycles) room m

/-! ## The frame -/

/-- A frame stops when someone asked to quit, when the cycles granted have gone by, or after a
step that has finished it. -/
def frameLoop (granted start : UInt64) : Loop Unit where
  before m := if m.quit || granted ≤ m.cyclesSince start then some () else none
  after m := if m.frameDone then some () else none

/-- A frame goes on exactly if nobody asks to quit and its cycles are not used up. -/
theorem frameLoop_before_eq_none {granted start : UInt64} {m : Machine} :
    (frameLoop granted start).before m = none ↔
      (m.quit || granted ≤ m.cyclesSince start) = false := by
  unfold frameLoop
  grind

/-- A frame goes on while nobody asks to quit and some of the cycles granted are left. -/
theorem frameLoop_going_iff {granted start : UInt64} {m : Machine} :
    (frameLoop granted start).before m = none ↔
      m.quit = false ∧ m.gone start < granted.toNat := by
  rw [frameLoop_before_eq_none, Bool.or_eq_false_iff, decide_eq_false_iff_not,
    UInt64.le_iff_toNat_le, Nat.not_le]
  rfl

/-- A frame grants its cycles. -/
theorem frameLoop_grants (granted start : UInt64) :
    (frameLoop granted start).Grants granted.toNat start := by
  intro m going
  exact (frameLoop_going_iff.mp going).2

/-- A frame goes on after a step exactly if the picture is not finished. -/
theorem frameLoop_after_eq_none {granted start : UInt64} {m : Machine} :
    (frameLoop granted start).after m = none ↔ m.frameDone = false := by
  unfold frameLoop
  grind

/-- The steps of a frame go round its loop. -/
theorem roundBy_frameSteps (granted start : UInt64) :
    (frameLoop granted start).RoundBy (frameSteps granted start) where
  ends := by
    intro m result budget finished
    have seen : (if m.quit || granted ≤ m.cyclesSince start then some () else none) =
      some result := finished
    cases budget with
    | zero => rfl
    | succ budget =>
      simp only [frameSteps]
      grind
  fails := by
    intro m error budget going failed
    simp only [frameSteps, frameLoop_before_eq_none.mp going, Bool.false_eq_true, if_false]
    grind
  leaves := by
    intro m cycles result budget going stepped finished
    have done : (if m.step.1.frameDone then some () else none) = some result := finished
    simp only [frameSteps, frameLoop_before_eq_none.mp going, Bool.false_eq_true, if_false]
    grind
  goesOn := by
    intro m cycles budget going stepped more
    have undone := frameLoop_after_eq_none.mp more
    simp only [frameSteps, frameLoop_before_eq_none.mp going, Bool.false_eq_true, if_false]
    grind

/-- The cycles granted to a frame. -/
def frameCycles (m : Machine) : UInt64 := cyclesPerFrame * Lcd.speedFactor m.cpu.speed

/-- A frame has 70224 cycles, times the speed. -/
theorem toNat_frameCycles {m : Machine} (two : m.cpu.speed = 1 ∨ m.cpu.speed = 2) :
    m.frameCycles.toNat = 70224 * m.cpu.speed.toNat := by
  unfold frameCycles
  obtain single | double := two
  · rw [single]
    rfl
  · rw [double]
    rfl

/-- The speed is not zero. -/
theorem speed_pos {m : Machine} (two : m.cpu.speed = 1 ∨ m.cpu.speed = 2) :
    0 < m.cpu.speed.toNat := by
  obtain single | double := two
  · rw [single]
    decide
  · rw [double]
    decide

/-- A frame ends where its loop does. -/
theorem stepFrame_takes {m : Machine} (two : m.cpu.speed = 1 ∨ m.cpu.speed = 2) :
    ∃ n, (frameLoop m.frameCycles m.cpu.cycles).Takes m n m.stepFrame := by
  have room : m.frameCycles.toNat + 44 < 2 ^ 64 := by
    rw [toNat_frameCycles two]
    have := m.cpu.speed.toNat_lt
    omega
  exact (roundBy_frameSteps m.frameCycles m.cpu.cycles).takes (frameLoop_grants _ _) room m

/-! ## Progress and punctuality -/

/-- In a session from a reset the speed is single or double. -/
theorem session_speed (m : Machine) (requests : List Request) :
    let last := (m.reset.session requests).1
    last.cpu.speed = 1 ∨ last.cpu.speed = 2 :=
  (invariant_sameMode.session (along_of_always (fun _ _ => trivial) m.reset requests)
    (invariant_sameMode.reset m)).speed

/-- A run that ends at its limit has gone past it by less than a step. -/
theorem run_punctual (m : Machine) {limit : UInt64}
    (room : m.cpu.cycles.toNat + limit.toNat + 44 < 2 ^ 64)
    (reached : (m.run (some limit)).2 = .ok .cycleLimit) :
    ∃ c, (m.run (some limit)).1.cpu.cycles.toNat = m.cpu.cycles.toNat + c ∧
      limit.toNat ≤ c ∧ c < limit.toNat + 44 ∧ (limit = 0 → c = 0) := by
  have alone : limit.toNat + 44 < 2 ^ 64 := by omega
  obtain ⟨n, takes⟩ := m.run_takes alone
  have grants := runLoop_grants limit m.cpu.cycles
  have late := grants.gone_lt (by omega) takes (by rw [gone_start]; omega)
  have past : limit.toNat ≤ (m.run (some limit)).1.gone m.cpu.cycles := by
    obtain finished | finished := takes.seen reached
    · exact limitReached_iff.mp (runLoop_before_eq_limit finished)
    · contradiction
  have shown : (m.run (some limit)).1.cpu.cycles.toNat =
      m.cpu.cycles.toNat + (m.run (some limit)).1.gone m.cpu.cycles := by
    rw [← toNat_add_cycles (by omega), ← cycles_eq_gone]
  refine ⟨_, shown, past, late, ?_⟩
  intro none
  subst none
  exact gone_start m

/-- A frame has used up its cycles by less than a step when it ends. -/
theorem frame_punctual {m : Machine} (two : m.cpu.speed = 1 ∨ m.cpu.speed = 2) :
    ∃ c < 70224 * m.cpu.speed.toNat + 44,
      m.stepFrame.1.cpu.cycles = m.cpu.cycles + UInt64.ofNat c := by
  obtain ⟨n, takes⟩ := stepFrame_takes two
  have grants := frameLoop_grants m.frameCycles m.cpu.cycles
  have small := m.cpu.speed.toNat_lt
  rw [toNat_frameCycles two] at grants
  have late := grants.gone_lt (by omega) takes (by rw [gone_start]; omega)
  exact ⟨_, late, cycles_eq_gone _ _⟩

/-- After any session that begins with a reset a step that succeeds takes between four and 44
cycles, a multiple of four. So a run under a limit comes to an end, and if the limit is why,
the cycles that it took reach the limit and go past it by less than 44. A frame comes to an end
as well, and takes less than 44 cycles more than the screen takes for it. -/
theorem runs_end_on_time (m : Machine) (requests : List Request) :
    let last := (m.reset.session requests).1
    let start := last.cpu.cycles
    (∀ cycles, last.step.2 = .ok cycles →
      (4 ∣ cycles.toNat ∧ 4 ≤ cycles.toNat ∧ cycles.toNat ≤ 44) ∧
        last.step.1.cpu.cycles = start + cycles.toUInt64) ∧
      (∀ limit : UInt64, start.toNat + limit.toNat + 44 < 2 ^ 64 →
        (∃ n, (runLoop (some limit) start).Takes last n (last.run (some limit))) ∧
          ((last.run (some limit)).2 = .ok .cycleLimit →
            ∃ c, (last.run (some limit)).1.cpu.cycles.toNat = start.toNat + c ∧
              limit.toNat ≤ c ∧ c < limit.toNat + 44 ∧ (limit = 0 → c = 0))) ∧
      (∃ n, (frameLoop last.frameCycles start).Takes last n last.stepFrame) ∧
      ∃ c < 70224 * last.cpu.speed.toNat + 44,
        last.stepFrame.1.cpu.cycles = start + UInt64.ofNat c := by
  intro last start
  have two := session_speed m requests
  refine ⟨?_, ?_, stepFrame_takes two, frame_punctual two⟩
  · intro cycles stepped
    exact cost_of_step stepped
  · intro limit room
    exact ⟨last.run_takes (by omega), last.run_punctual room⟩

/-- A run of a machine that waits ends with its limit. -/
theorem run_of_waits {m : Machine} (waits : m.Waits) :
    (m.run (some 8)).2 = .ok .cycleLimit := by
  let loop := runLoop (some 8) m.cpu.cycles
  obtain ⟨first, waitsOn, -⟩ := waits.step
  obtain ⟨second, waitsStill, -⟩ := waitsOn.step
  have begun := m.gone_start
  have four := gone_of_step m.cpu.cycles first (by omega)
  rw [begun] at four
  have eight := gone_of_step m.cpu.cycles second (by rw [four]; decide)
  rw [four] at eight
  have going : ∀ {next : Machine}, next.Waits → next.gone m.cpu.cycles < 8 →
      loop.before next = none := by
    intro next waits early
    have short : next.limitReached m.cpu.cycles (some 8) = false := by
      rw [Bool.eq_false_iff, ne_eq, limitReached_iff]
      exact Nat.not_le_of_lt early
    simp only [loop, runLoop, waits.calm, short, Bool.false_eq_true, if_false]
  have finished : loop.before m.step.1.step.1 = some .cycleLimit := by
    have long : m.step.1.step.1.limitReached m.cpu.cycles (some 8) = true := by
      rw [limitReached_iff, eight]
      decide
    simp only [loop, runLoop, waitsStill.calm, long, Bool.false_eq_true, if_false, if_true]
  have takes : loop.Takes m 2 (m.step.1.step.1, .ok .cycleLimit) :=
    .goesOn (going waits (by omega)) first rfl
      (.goesOn (going waitsOn (by rw [four]; decide)) second rfl (.ends finished))
  have run : m.run (some 8) = _ :=
    (roundBy_runSteps (some 8) m.cpu.cycles).eq_of_takes takes (Nat.le_refl 2)
  rw [run]

/-- A session of one step makes the step. -/
theorem session_step (m : Machine) : (m.session [.step]).1 = m.step.1 := rfl

/-- A machine that waits is given eight cycles. -/
theorem runs_end_on_time_while_waiting :
    let last := ((assemble halts #[]).reset.session [.step]).1
    let start := last.cpu.cycles
    last.step.2 = .ok 4 ∧ start.toNat + (8 : UInt64).toNat + 44 < 2 ^ 64 ∧
      (last.run (some 8)).2 = .ok .cycleLimit ∧
      last.step.1.cpu.cycles = start + (4 : UInt32).toUInt64 ∧
      ∃ c, (last.run (some 8)).1.cpu.cycles.toNat = start.toNat + c ∧
        (8 : UInt64).toNat ≤ c ∧ c < (8 : UInt64).toNat + 44 := by
  obtain ⟨waits, -, cycles⟩ := haltMachine_waits
  rw [← session_step, haltMachine] at waits cycles
  obtain ⟨stepped, -, -⟩ := waits.step
  have reached := run_of_waits waits
  obtain ⟨cost, runs, -, -⟩ := runs_end_on_time (assemble halts #[]) [.step]
  have room : ((assemble halts #[]).reset.session [.step]).1.cpu.cycles.toNat +
      (8 : UInt64).toNat + 44 < 2 ^ 64 := by
    rw [cycles]
    decide
  obtain ⟨c, shown, past, late, -⟩ := (runs 8 room).2 reached
  exact ⟨stepped, room, reached, (cost 4 stepped).2, c, shown, past, late⟩

end Machine

end Handheld
