import Mathlib.Algebra.GroupWithZero.Nat
import Handheld.Proofs.Invariance

/-!
# The cycle counter

The counter of the processor has 64 bits. Some properties hold only while it has not
wrapped, and a session tells whether it has: the counter never goes down in a step or in
any other request, a reset apart.

Every request comes with a bound on the cycles it can take. A session whose bounds add up
to less than the counter can hold does not wrap it (`unwrapped_of_room`).
-/

set_option autoImplicit false

namespace Handheld

/-- The most cycles that a request can take. A frame is granted its cycles times the speed,
whatever that is. -/
def Request.mostCycles : Request → Nat
  | .step => 56
  | .run limit => 56 * Machine.stepBudget limit
  | .stepFrame => 56 * Machine.stepBudget (some (Machine.cyclesPerFrame * 255))
  | .execute operation => operation.cycles.toNat + 12
  | .serviceInterrupt _ => 20
  | _ => 0

namespace Machine

/-- The cycle counter has not wrapped: in no step and in no other request did it go down. -/
def Unwrapped (m : Machine) (requests : List Request) : Prop := m.Along (· ≤ ·) requests

/-- Reset starts the cycle counter at zero. -/
theorem reset_cycles (m : Machine) : m.reset.cpu.cycles = 0 := by
  obtain ⟨cpu, -⟩ | ⟨cpu, -⟩ := m.reset_outcome
  · rw [cpu]
  · rw [cpu]
    rfl

/-- With `left` steps to go the counter stays within a bound. -/
def Within (most left : Nat) (m : Machine) : Prop := m.cpu.cycles.toNat + 56 * left ≤ most

/-- One step of a machine with room for it counts upwards and leaves room for the steps that
remain. -/
theorem within_step {most : Nat} (fits : most < 2 ^ 64) (left : Nat) (m : Machine)
    (within : Within most (left + 1) m) :
    m.cpu.cycles ≤ m.step.1.cpu.cycles ∧ Within most left m.step.1 := by
  unfold Within at *
  obtain ⟨n, few, cycles⟩ := m.step_cycles
  have room : m.cpu.cycles.toNat + n < 2 ^ 64 := by omega
  have shown := toNat_add_cycles room
  rw [UInt64.le_iff_toNat_le, cycles, shown]
  omega

/-- No speed factor asks for a longer frame than the greatest one does. -/
theorem stepBudget_frame_le (speed : UInt8) :
    stepBudget (some (cyclesPerFrame * Lcd.speedFactor speed)) ≤
      stepBudget (some (cyclesPerFrame * 255)) := by
  have factor : (Lcd.speedFactor speed).toNat ≤ 255 := by
    unfold Lcd.speedFactor
    split
    · decide
    · rw [UInt8.toNat_toUInt64]
      have := speed.toNat_lt
      omega
  have granted : (cyclesPerFrame * Lcd.speedFactor speed).toNat ≤ 70224 * 255 := by
    rw [UInt64.toNat_mul]
    exact Nat.le_trans (Nat.mod_le _ _) (Nat.mul_le_mul_left 70224 factor)
  show ((cyclesPerFrame * Lcd.speedFactor speed).toNat + 3) / 4 ≤ (70224 * 255 + 3) / 4
  omega

/-- A request for which the counter has room passes on without wrapping, and the counter
shows no more than expected. -/
theorem perform_within {m : Machine} {request : Request} {most : Nat} (fits : most < 2 ^ 64)
    (within : m.cpu.cycles.toNat + request.mostCycles ≤ most) :
    m.Passes (· ≤ ·) request ∧ (m.perform request).1.cpu.cycles.toNat ≤ most := by
  have idle : System.Proceeds m.toSystem 0 m.toSystem := .refl _
  have works : ∀ {n : Nat} {s : System Hardware}, System.Proceeds m.toSystem n s →
      m.cpu.cycles.toNat + n ≤ most →
      m.cpu.cycles ≤ s.cpu.cycles ∧ s.cpu.cycles.toNat ≤ most := by
    intro n s proceeds bound
    have room : m.cpu.cycles.toNat + n < 2 ^ 64 := by omega
    rw [proceeds.toNat_cycles room]
    exact ⟨proceeds.le_of_room room, bound⟩
  have stays : m.cpu.cycles ≤ m.cpu.cycles ∧ m.cpu.cycles.toNat ≤ most :=
    ⟨UInt64.le_refl _, by omega⟩
  cases request with
  | reset =>
    refine ⟨trivial, ?_⟩
    show m.reset.cpu.cycles.toNat ≤ most
    rw [reset_cycles]
    exact Nat.zero_le most
  | step =>
    obtain ⟨up, after⟩ := within_step fits 0 m within
    exact ⟨up, after⟩
  | run limit =>
    obtain ⟨path, left, after⟩ :=
      runSteps_steps (Within most) (within_step fits) limit m.cpu.cycles _ m within
    exact ⟨path, Nat.le_trans (Nat.le_add_right _ _) after⟩
  | stepFrame =>
    -- The budget of a frame depends on the speed, which is not known here.
    have budget := stepBudget_frame_le m.cpu.speed
    have enough :
        Within most (stepBudget (some (cyclesPerFrame * Lcd.speedFactor m.cpu.speed))) m :=
      Nat.le_trans (Nat.add_le_add_left (Nat.mul_le_mul_left 56 budget) _) within
    obtain ⟨path, left, after⟩ :=
      frameSteps_steps (Within most) (within_step fits) _ m.cpu.cycles _ m enough
    exact ⟨path, Nat.le_trans (Nat.le_add_right _ _) after⟩
  | write address value => exact works (idle.write _ value) within
  | decode address => exact works (idle.decode address) within
  | execute operation =>
    have branch := operation.action.extra_le
    obtain ⟨more, few, executed⟩ := idle.execute operation
    have bound : m.cpu.cycles.toNat + (operation.cycles.toNat + 12) ≤ most := within
    exact works executed (by omega)
  | serviceInterrupt vector => exact works (idle.enterHandler vector) within
  | mark place usage => exact works (idle.mark place usage) within
  | markOrigin place usage => exact works (idle.markOrigin place usage) within
  | move destination source => exact works (idle.move destination source) within
  | read | raiseInterrupt | requestQuit | swap | install => exact stays

/-- A session whose requests cannot take more cycles than the counter has room for does not
wrap it. -/
theorem unwrapped_of_room (m : Machine) (requests : List Request)
    (room : m.cpu.cycles.toNat + (requests.map Request.mostCycles).sum < 2 ^ 64) :
    m.Unwrapped requests := by
  induction requests generalizing m with
  | nil => trivial
  | cons request requests ih =>
    rw [List.map_cons, List.sum_cons] at room
    have fits : m.cpu.cycles.toNat + request.mostCycles < 2 ^ 64 := by omega
    obtain ⟨passes, after⟩ := perform_within fits (Nat.le_refl _)
    exact ⟨passes, ih _ (by omega)⟩

end Machine

end Handheld
