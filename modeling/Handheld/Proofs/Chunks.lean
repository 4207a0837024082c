import Handheld.Proofs.StepCount

/-!
# Runs in chunks

A run that has stopped at its limit can be taken up again: a run under a larger limit does what
the first one did and then what a second one does that is granted the cycles left. It does not
matter that the last step of the first run may go past its limit, even past the larger one. And
a run that has stopped for another reason has nothing left to be taken up.

The two runs look at the cycles gone by since two different starts. So all of this holds as long
as the counter does not wrap (`Rises`).

* `takes_chunk`: under the smaller limit the loop of the run takes the same way and stops on it.
* `takes_later`: what is left of the way does not depend on where the counting starts.
* `steps_le`: the steps of a loop are never more than its budget.
-/

set_option autoImplicit false

namespace Handheld.Machine

/-! ## A counter that does not wrap -/

/-- The cycle counter does not wrap in the next `n` steps. -/
def Rises (m : Machine) (n : Nat) : Prop :=
  ∀ i < n, (m.after i).cpu.cycles ≤ (m.after (i + 1)).cpu.cycles

namespace Rises

variable {m : Machine} {n : Nat}

/-- The first of the steps does not wrap the counter. -/
theorem first (rises : m.Rises (n + 1)) : m.cpu.cycles ≤ m.step.1.cpu.cycles :=
  rises 0 (Nat.succ_pos n)

/-- The steps after the first few do not wrap the counter. -/
theorem later (k : Nat) (rises : m.Rises (k + n)) : (m.after k).Rises n := by
  intro i few
  rw [← after_add, ← after_add]
  exact rises (k + i) (by omega)

/-- The steps after the first do not wrap the counter. -/
theorem rest (rises : m.Rises (n + 1)) : m.step.1.Rises n := by
  rw [Nat.add_comm] at rises
  exact rises.later 1

/-- The steps together do not wrap the counter. -/
theorem le_after (rises : m.Rises n) : m.cpu.cycles ≤ (m.after n).cpu.cycles := by
  induction n with
  | zero => exact UInt64.le_refl _
  | succ n ih =>
    apply UInt64.le_trans (ih _) (rises n (Nat.lt_succ_self n))
    intro i few
    exact rises i (by omega)

end Rises

/-- While the counter has room for the dearest steps it does not wrap. -/
theorem rises_of_room {m : Machine} {n : Nat} (room : m.cpu.cycles.toNat + 56 * n < 2 ^ 64) :
    m.Rises n := by
  induction n generalizing m with
  | zero => exact nofun
  | succ n ih =>
    obtain ⟨up, after⟩ := within_step room n m (Nat.le_refl _)
    intro i few
    cases i with
    | zero => exact up
    | succ i =>
      rw [← after_step, ← after_step]
      exact ih (Nat.lt_of_le_of_lt after room) i (by omega)

/-- Without a wrap the cycles gone are the difference of the counters. -/
theorem gone_eq_sub {m : Machine} {start : UInt64} (order : start ≤ m.cpu.cycles) :
    m.gone start = m.cpu.cycles.toNat - start.toNat :=
  UInt64.toNat_sub_of_le _ _ order

/-- A step that does not wrap the counter adds at least four cycles. -/
theorem four_le_gone {m : Machine} {start : UInt64} {cycles : UInt32}
    (order : start ≤ m.cpu.cycles) (up : m.cpu.cycles ≤ m.step.1.cpu.cycles)
    (stepped : m.step.2 = .ok cycles) : m.gone start + 4 ≤ m.step.1.gone start := by
  obtain ⟨⟨-, least, most⟩, later⟩ := cost_of_step stepped
  have ordered := UInt64.le_iff_toNat_le.mp order
  have rising := UInt64.le_iff_toNat_le.mp up
  have := m.cpu.cycles.toNat_lt
  have shown : m.step.1.cpu.cycles.toNat = m.cpu.cycles.toNat + cycles.toNat := by
    rw [later, UInt64.toNat_add, UInt32.toNat_toUInt64] at rising ⊢
    omega
  rw [gone_eq_sub order, gone_eq_sub (UInt64.le_trans order up), shown]
  omega

/-! ## The loop of a run -/

/-- A run with a limit goes on exactly if nobody asks to quit and fewer cycles are gone. -/
theorem runLoop_going_iff {limit start : UInt64} {m : Machine} :
    (runLoop (some limit) start).before m = none ↔
      m.quit = false ∧ m.gone start < limit.toNat := by
  rw [← Nat.not_le, ← limitReached_iff, Bool.not_eq_true]
  unfold runLoop
  grind

/-- A run ends at once when it is asked to quit. -/
theorem runLoop_before_of_quit {limit start : UInt64} {m : Machine} (quits : m.quit = true) :
    (runLoop (some limit) start).before m = some .quit :=
  if_pos quits

/-- A run ends at once when its limit is reached. -/
theorem runLoop_before_of_late {limit start : UInt64} {m : Machine} (calm : m.quit = false)
    (late : limit.toNat ≤ m.gone start) :
    (runLoop (some limit) start).before m = some .cycleLimit := by
  have reached := limitReached_iff.mpr late
  unfold runLoop
  grind

variable {m : Machine} {n : Nat} {limit start : UInt64}
  {outcome : Machine × Except StepError StopReason}

/-- A run whose counter does not wrap ends where its loop does, since each step uses up four of
the cycles at least. -/
theorem takes_of_rises {budget : Nat} (order : start ≤ m.cpu.cycles)
    (rises : m.Rises ((runLoop (some limit) start).count budget m))
    (enough : limit.toNat ≤ m.gone start + 4 * budget) :
    (runLoop (some limit) start).Takes m ((runLoop (some limit) start).count budget m)
      (runSteps (some limit) start budget m) := by
  have round := roundBy_runSteps (some limit) start
  fun_induction Loop.count (runLoop (some limit) start) budget m with
  | case1 m =>
    apply Loop.Takes.ends
    cases calm : m.quit with
    | true => exact runLoop_before_of_quit calm
    | false => exact runLoop_before_of_late calm (by omega)
  | case2 budget m result finished =>
    rw [round.ends _ finished]
    exact .ends finished
  | case3 budget m error failed going =>
    rw [round.fails budget going failed]
    exact .fails going failed
  | case4 budget m cycles result finished stepped going => contradiction
  | case5 budget m cycles more stepped going ih =>
    have further := four_le_gone order rises.first stepped
    rw [round.goesOn budget going stepped more]
    apply Loop.Takes.goesOn going stepped more
    exact ih (UInt64.le_trans order rises.first) rises.rest (by omega)

/-- A loop makes no more steps than a quarter of the cycles that it is still granted. -/
theorem steps_le (takes : (runLoop (some limit) start).Takes m n outcome)
    (order : start ≤ m.cpu.cycles) (rises : m.Rises n) :
    n ≤ (limit.toNat - m.gone start + 3) / 4 := by
  induction takes with
  | ends => exact Nat.zero_le _
  | fails going =>
    have early := (runLoop_going_iff.mp going).2
    omega
  | leaves _ _ finished => contradiction
  | goesOn going stepped _ _ ih =>
    have early := (runLoop_going_iff.mp going).2
    have further := four_le_gone order rises.first stepped
    have rest := ih (UInt64.le_trans order rises.first) rises.rest
    omega

/-! ## Two chunks -/

/-- A run under a smaller limit takes the same way. It stops on it at its own limit, and the rest
of the way is still to be taken, or it goes to the end and ends there for another reason. -/
theorem takes_chunk {first whole : UInt64} (smaller : first ≤ whole)
    (takes : (runLoop (some whole) start).Takes m n outcome) :
    (∃ k rest, k + rest = n ∧
      (runLoop (some first) start).Takes m k (m.after k, .ok .cycleLimit) ∧
      (runLoop (some whole) start).Takes (m.after k) rest outcome) ∨
    ((runLoop (some first) start).Takes m n outcome ∧ outcome.2 ≠ .ok .cycleLimit) := by
  have less := UInt64.le_iff_toNat_le.mp smaller
  have stopsHere : ∀ {m : Machine}, m.quit = false → first.toNat ≤ m.gone start →
      (runLoop (some first) start).Takes m 0 (m, .ok .cycleLimit) := by
    intro m calm late
    exact .ends (runLoop_before_of_late calm late)
  have goesOn : ∀ {m : Machine}, (runLoop (some whole) start).before m = none →
      m.gone start < first.toNat → (runLoop (some first) start).before m = none := by
    intro m going early
    exact runLoop_going_iff.mpr ⟨(runLoop_going_iff.mp going).1, early⟩
  induction takes with
  | @ends m result finished =>
    cases calm : m.quit with
    | true =>
      rw [runLoop_before_of_quit calm] at finished
      cases finished
      exact .inr ⟨.ends (runLoop_before_of_quit calm), nofun⟩
    | false =>
      have late : whole.toNat ≤ m.gone start := by
        by_contra early
        rw [runLoop_going_iff.mpr ⟨calm, Nat.lt_of_not_le early⟩] at finished
        contradiction
      exact .inl ⟨0, 0, rfl, stopsHere calm (by omega), .ends finished⟩
  | @fails m error going failed =>
    by_cases late : first.toNat ≤ m.gone start
    · have calm := (runLoop_going_iff.mp going).1
      exact .inl ⟨0, 1, rfl, stopsHere calm late, .fails going failed⟩
    · exact .inr ⟨.fails (goesOn going (Nat.lt_of_not_le late)) failed, nofun⟩
  | leaves _ _ finished => contradiction
  | @goesOn m cycles n outcome going stepped more rest ih =>
    -- The first chunk has ended before this step, or the step is part of it.
    by_cases late : first.toNat ≤ m.gone start
    · have calm := (runLoop_going_iff.mp going).1
      exact .inl ⟨0, n + 1, Nat.zero_add _, stopsHere calm late,
        .goesOn going stepped more rest⟩
    · have further := goesOn going (Nat.lt_of_not_le late)
      obtain ⟨k, left, steps, chunk, later⟩ | ⟨chunk, other⟩ := ih
      · rw [after_step] at chunk later
        exact .inl ⟨k + 1, left, by omega, .goesOn further stepped rfl chunk, later⟩
      · exact .inr ⟨.goesOn further stepped rfl chunk, other⟩

/-- The rest of the way is taken alike by a run that begins later, at `begun`, and is granted
what is left. -/
theorem takes_later {begun granted : UInt64} (before : start ≤ begun)
    (left : granted.toNat = limit.toNat - (begun.toNat - start.toNat))
    (order : begun ≤ m.cpu.cycles) (rises : m.Rises n)
    (takes : (runLoop (some limit) start).Takes m n outcome) :
    (runLoop (some granted) begun).Takes m n outcome := by
  have least := UInt64.le_iff_toNat_le.mp before
  -- The two loops look at the same limit, told from two starts.
  have alike : ∀ {m : Machine}, begun ≤ m.cpu.cycles →
      (runLoop (some granted) begun).before m = (runLoop (some limit) start).before m := by
    intro m order
    have ordered := UInt64.le_iff_toNat_le.mp order
    have same : m.limitReached begun (some granted) = m.limitReached start (some limit) := by
      rw [Bool.eq_iff_iff, limitReached_iff, limitReached_iff, left, gone_eq_sub order,
        gone_eq_sub (UInt64.le_trans before order)]
      omega
    simp only [runLoop, same]
  induction takes with
  | ends finished => exact .ends ((alike order).trans finished)
  | fails going failed => exact .fails ((alike order).trans going) failed
  | leaves _ _ finished => contradiction
  | goesOn going stepped _ _ ih =>
    exact .goesOn ((alike order).trans going) stepped rfl
      (ih (UInt64.le_trans order rises.first) rises.rest)

/-- A run with a limit comes to the end that its loop takes. -/
theorem run_of_takes (takes : (runLoop (some limit) m.cpu.cycles).Takes m n outcome)
    (rises : m.Rises n) : m.run (some limit) = outcome := by
  have few := steps_le takes (UInt64.le_refl _) rises
  rw [gone_start] at few
  exact (roundBy_runSteps (some limit) m.cpu.cycles).eq_of_takes takes few

/-- A run that stops at its limit is taken up where it has stopped: a run under a larger limit
ends as a second run does that begins there and is granted what the first one has left, which is
nothing if it went past the larger limit as well. A run that ends for another reason ends the
same way under a larger limit. -/
theorem runs_resume (m : Machine) {first whole : UInt64} (smaller : first ≤ whole)
    (rises : m.Rises (m.stepsOf (.run (some whole)))) :
    let chunk := m.run (some first)
    (chunk.2 = .ok .cycleLimit →
      ∃ c, chunk.1.cpu.cycles.toNat = m.cpu.cycles.toNat + c ∧
        m.run (some whole) = chunk.1.run (some (UInt64.ofNat (whole.toNat - c)))) ∧
      (chunk.2 ≠ .ok .cycleLimit → m.run (some whole) = chunk) := by
  intro chunk
  have budget : whole.toNat ≤ m.gone m.cpu.cycles + 4 * stepBudget (some whole) := by
    show whole.toNat ≤ _ + 4 * ((whole.toNat + 3) / 4)
    omega
  have takes := takes_of_rises (UInt64.le_refl _) rises budget
  obtain ⟨k, rest, steps, takesFirst, takesRest⟩ | ⟨takesAll, other⟩ := takes_chunk smaller takes
  · rw [stepsOf, ← steps] at rises
    have risesFirst : m.Rises k := fun i few => rises i (by omega)
    have stopped : chunk = (m.after k, .ok .cycleLimit) := run_of_takes takesFirst risesFirst
    have order := risesFirst.le_after
    have up := UInt64.le_iff_toNat_le.mp order
    obtain ⟨c, later⟩ := Nat.exists_eq_add_of_le up
    have left : (UInt64.ofNat (whole.toNat - c)).toNat =
        whole.toNat - ((m.after k).cpu.cycles.toNat - m.cpu.cycles.toNat) := by
      rw [later, Nat.add_sub_cancel_left]
      exact UInt64.toNat_ofNat_of_lt' (Nat.lt_of_le_of_lt (Nat.sub_le _ _) whole.toNat_lt)
    have again := takes_later order left (UInt64.le_refl _) (rises.later k) takesRest
    have resumed := run_of_takes again (rises.later k)
    rw [stopped]
    exact ⟨fun _ => ⟨c, later, resumed.symm⟩, fun other => absurd rfl other⟩
  · have stopped : chunk = _ := run_of_takes takesAll rises
    rw [stopped]
    exact ⟨fun ended => absurd ended other, fun _ => rfl⟩

/-- A boot program that jumps to itself, twelve cycles at a time. -/
def spinning : Machine := (assemble .empty #[0x18, 0xFE]).reset

/-- The first chunk goes past the larger limit, so nothing is left for the second. -/
theorem runs_resume_past_limit :
    let m := spinning
    let chunk := m.run (some 20)
    (20 : UInt64) ≤ 22 ∧ m.Rises (m.stepsOf (.run (some 22))) ∧ chunk.2 = .ok .cycleLimit ∧
      chunk.1.cpu.cycles = 24 ∧ m.run (some 22) = chunk.1.run (some 0) := by
  intro m chunk
  have smaller : (20 : UInt64) ≤ 22 := by decide
  have rises : m.Rises (m.stepsOf (.run (some 22))) := by
    apply rises_of_room
    decide +kernel
  have stopped : chunk.2 = .ok .cycleLimit := by decide +kernel
  have shown : chunk.1.cpu.cycles = 24 := by decide +kernel
  obtain ⟨c, gone, resumed⟩ := (runs_resume m smaller rises).1 stopped
  have begun : m.cpu.cycles.toNat = 0 := by decide +kernel
  rw [begun, shown, Nat.zero_add] at gone
  have past : (22 : UInt64).toNat - c = 0 := by
    rw [← gone]
    rfl
  rw [past] at resumed
  exact ⟨smaller, rises, stopped, shown, resumed⟩

end Handheld.Machine
