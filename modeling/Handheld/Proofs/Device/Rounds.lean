import Handheld.Proofs.Device.LcdEvents
import Mathlib.Logic.Function.Iterate

/-!
# Catching up round by round

The timer and the screen say how often they count, or enter a line, by a division. They could as
well go round a loop that looks at the time each time: as long as a full period has gone by, one
more round is made. That loop stops, and it stops after as many rounds as the division says
(`stopsAfter_periodsGone`), so both ways lead to the same state (`Timer.endsWith_update`,
`Lcd.endsWith_update`).
-/

set_option autoImplicit false

namespace Handheld

/-! ## Loops -/

section

variable {σ : Type}

/-- A loop that goes round as long as a condition holds makes so many rounds. -/
structure StopsAfter (goesOn : σ → Prop) (round : σ → σ) (first : σ) (rounds : Nat) : Prop where
  goes : ∀ i < rounds, goesOn (round^[i] first)
  stops : ¬ goesOn (round^[rounds] first)

/-- A loop that goes round as long as a condition holds stops, and it stops at `last`. -/
def EndsWith (goesOn : σ → Prop) (round : σ → σ) (first last : σ) : Prop :=
  ∃ rounds, StopsAfter goesOn round first rounds ∧ round^[rounds] first = last

variable {goesOn : σ → Prop} {round : σ → σ} {first last other : σ}

/-- A loop makes one number of rounds only. -/
theorem StopsAfter.unique {few many : Nat} (stops : StopsAfter goesOn round first few)
    (stopsToo : StopsAfter goesOn round first many) : few = many := by
  rcases Nat.lt_trichotomy few many with less | same | more
  · exact absurd (stopsToo.goes few less) stops.stops
  · exact same
  · exact absurd (stops.goes many more) stopsToo.stops

/-- A loop ends at one state only. -/
theorem EndsWith.unique (ends : EndsWith goesOn round first last)
    (endsToo : EndsWith goesOn round first other) : last = other := by
  obtain ⟨rounds, stops, rfl⟩ := ends
  obtain ⟨more, stopsToo, rfl⟩ := endsToo
  rw [stops.unique stopsToo]

/-! ## Rounds of one period each -/

variable {period : UInt64} {since : σ → UInt64}

/-- If each round lasts a period, a number of rounds lasts as many periods. -/
theorem since_iterate (later : ∀ state, since (round state) = since state + period) (n : Nat)
    (state : σ) : since (round^[n] state) = since state + UInt64.ofNat n * period := by
  induction n generalizing state with
  | zero => simp
  | succ n ih => rw [Function.iterate_succ_apply, ih, later, periods_succ]

/-- A loop that goes round as long as a full period has gone by makes one round for each period
that has. -/
theorem stopsAfter_periodsGone (later : ∀ state, since (round state) = since state + period)
    (positive : 0 < period.toNat) (now : UInt64) (first : σ) :
    StopsAfter (fun state => period ≤ elapsed (since state) now) round first
      (periodsGone period (since first) now) := by
  have left : ∀ i ≤ periodsGone period (since first) now,
      (elapsed (since (round^[i] first)) now).toNat =
        now.toNat - ((since first).toNat + i * period.toNat) := by
    intro i few
    rw [elapsed_toNat, since_iterate later, toNat_periods few]
  have parts := Nat.div_add_mod' (now.toNat - (since first).toNat) period.toNat
  have rest := Nat.mod_lt (now.toNat - (since first).toNat) positive
  rw [← periodsGone_eq] at parts
  constructor
  · intro i fewer
    have room : (i + 1) * period.toNat ≤ periodsGone period (since first) now * period.toNat :=
      Nat.mul_le_mul_right _ fewer
    rw [Nat.succ_mul] at room
    rw [UInt64.le_iff_toNat_le, left i fewer.le]
    omega
  · rw [UInt64.le_iff_toNat_le, left _ (Nat.le_refl _)]
    omega

end

namespace Timer

/-- Counting a number of times is counting once, again and again. -/
theorem ticks_eq_iterate (period : UInt64) (modulo : UInt8) (n : Nat) (count : Count) :
    ticks period modulo n count = (tick period modulo)^[n] count := by
  induction n generalizing count with
  | zero => rfl
  | succ n ih => exact ih (tick period modulo count)

/-- No rate has a period of nothing. -/
theorem period_pos (control : UInt8) : 0 < (period control).toNat := by
  unfold period
  split <;> decide

/-- A timer that runs counts as long as a full period has gone by since its last count. -/
theorem endsWith_update {control : UInt8} (running : isRunning control = true) (timer : Timer)
    (now : UInt64) (modulo counter : UInt8) :
    EndsWith (fun count => period control ≤ elapsed count.timer.lastTick now)
      (tick (period control) modulo) { timer, counter }
      (timer.update now control modulo counter) := by
  have later : ∀ count : Count, (tick (period control) modulo count).timer.lastTick =
      count.timer.lastTick + period control := by
    intro count
    unfold tick
    split <;> rfl
  refine ⟨_, stopsAfter_periodsGone later (period_pos control) now _, ?_⟩
  rw [update_of_running running, ticks_eq_iterate]

end Timer

namespace Lcd

/-- Entering a number of lines is entering one, again and again. -/
theorem nextLines_eq_iterate (lineTime : UInt64) (awaited : UInt8) (n : Nat)
    (progress : LcdProgress) :
    nextLines lineTime awaited n progress = (nextLine lineTime awaited)^[n] progress := by
  induction n generalizing progress with
  | zero => rfl
  | succ n ih => exact ih (nextLine lineTime awaited progress)

/-- At no speed does a line take no time. -/
theorem lineTime_pos (speed : UInt8) : 0 < (dotsPerLine * speedFactor speed).toNat := by
  rw [toNat_lineTime_of_speed]
  omega

/-- A screen that is on enters lines as long as the time of a full line has gone by since the
current one began. Then the line is compared, and the mode is told. -/
theorem endsWith_update {control : UInt8} (on : control &&& 0x80 ≠ 0) (lineStart now : UInt64)
    (speed awaited : UInt8) (registers : LcdRegisters) :
    let lineTime := dotsPerLine * speedFactor speed
    ∃ last, EndsWith (fun progress => lineTime ≤ elapsed progress.lineStart now)
        (nextLine lineTime awaited) { lineStart, registers } last ∧
      update lineStart now speed control awaited registers =
        tellMode (speedFactor speed) now (compareLine awaited last) := by
  intro lineTime
  have later : ∀ progress, (nextLine lineTime awaited progress).lineStart =
      progress.lineStart + lineTime := by
    intro progress
    rw [nextLine_eq, frameNoted_lineStart, compareLine_lineStart]
    rfl
  refine ⟨_, ⟨_, stopsAfter_periodsGone later (lineTime_pos speed) now _, rfl⟩, ?_⟩
  rw [← nextLines_eq_iterate]
  exact update_of_on on lineStart now speed awaited registers

end Lcd

end Handheld
