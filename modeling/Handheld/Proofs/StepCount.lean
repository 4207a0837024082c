import Handheld.Proofs.RunLoop

/-!
# The steps that a request makes

A run and a frame make a number of steps, and where they leave the machine is where that many
steps leave it (`perform_of_stepping`). So what is to be said of every step that a session
makes is said of the machines `m.after i` with `i` below the number (`stepsOf`).

If a loop finds after one of its steps a machine with which it ends at once, this step was the
last (`Loop.RoundBy.ends_at`).
-/

set_option autoImplicit false

namespace Handheld

/-- Whether a request makes steps. -/
def Request.stepping : Request → Bool
  | .step | .run _ | .stepFrame => true
  | _ => false

namespace Machine

namespace Loop

variable {α : Type} {loop : Loop α} {m : Machine} {i : Nat}

/-- The number of steps that a loop makes, as far as a budget of them reaches. -/
def count (loop : Loop α) : Nat → Machine → Nat
  | 0, _ => 0
  | budget + 1, m =>
    match loop.before m, m.step.2, loop.after m.step.1 with
    | some _, _, _ => 0
    | none, .error _, _ => 1
    | none, .ok _, some _ => 1
    | none, .ok _, none => loop.count budget m.step.1 + 1

/-- A loop that has ended makes no step. -/
theorem count_of_ended {result : α} (finished : loop.before m = some result) (budget : Nat) :
    loop.count budget m = 0 := by
  cases budget with
  | zero => rfl
  | succ budget => simp only [count, finished]

namespace RoundBy

variable {f : Nat → Machine → Machine × Except StepError α}

/-- A loop leaves the machine where the steps that it makes leave it. -/
theorem machine_eq (round : loop.RoundBy f) (idle : ∀ m, (f 0 m).1 = m) (budget : Nat)
    (m : Machine) : (f budget m).1 = m.after (loop.count budget m) := by
  fun_induction count loop budget m with
  | case1 m => exact idle m
  | case2 budget m result finished => rw [round.ends _ finished, after_zero]
  | case3 budget m error failed going =>
    rw [round.fails budget going failed, after_succ, after_zero]
  | case4 budget m cycles result finished stepped going =>
    rw [round.leaves budget going stepped finished, after_succ, after_zero]
  | case5 budget m cycles more stepped going ih =>
    rw [round.goesOn budget going stepped more, ih, after_step]

/-- A step that succeeds is the last one if it leads to a machine with which the loop has
ended. -/
theorem ends_at (round : loop.RoundBy f) {result : α} {cycles : UInt32} {budget : Nat}
    (made : i < loop.count budget m) (stepped : (m.after i).step.2 = .ok cycles)
    (before : loop.before (m.after (i + 1)) = some result)
    (after : ∀ other, loop.after (m.after (i + 1)) = some other → other = result) :
    f budget m = (m.after (i + 1), .ok result) ∧ loop.count budget m = i + 1 := by
  fun_induction count loop budget m generalizing i with
  | case1 => cases made
  | case2 => cases made
  | case3 budget m error failed going =>
    obtain rfl : i = 0 := by omega
    rw [after_zero, failed] at stepped
    cases stepped
  | case4 budget m spent other finished succeeded going =>
    obtain rfl : i = 0 := by omega
    rw [round.leaves budget going succeeded finished, after other finished]
    exact ⟨rfl, rfl⟩
  | case5 budget m spent more succeeded going ih =>
    rw [round.goesOn budget going succeeded more]
    cases i with
    | zero =>
      -- The loop looks at the machine once more and makes no step.
      have none : loop.count budget m.step.1 = 0 := count_of_ended before budget
      exact ⟨round.ends budget before, by rw [none]⟩
    | succ i =>
      rw [← after_step] at stepped before after ⊢
      obtain ⟨ends, last⟩ := ih (by omega) stepped before after
      exact ⟨ends, by rw [last]⟩

end RoundBy

end Loop

/-- The number of steps that a request makes. -/
def stepsOf (m : Machine) : Request → Nat
  | .step => 1
  | .run limit => (runLoop limit m.cpu.cycles).count (stepBudget limit) m
  | .stepFrame =>
    (frameLoop m.frameCycles m.cpu.cycles).count (stepBudget (some m.frameCycles)) m
  | _ => 0

/-- A request that makes steps does nothing else. -/
theorem perform_of_stepping (m : Machine) {request : Request}
    (stepping : request.stepping = true) :
    (m.perform request).1 = m.after (m.stepsOf request) := by
  cases request with
  | step => rfl
  | run limit => exact (roundBy_runSteps limit m.cpu.cycles).machine_eq (fun _ => rfl) _ m
  | stepFrame =>
    exact (roundBy_frameSteps m.frameCycles m.cpu.cycles).machine_eq (fun _ => rfl) _ m
  | _ => cases stepping

end Machine

end Handheld
