import Mathlib.Data.Nat.Count
import Handheld.Proofs.Device.LcdEvents
import Handheld.Proofs.Independence.Processor
import Handheld.Proofs.LineClock
import Handheld.Proofs.Requests
import Handheld.Proofs.RunLoop

/-!
# One frame at a time

A frame is granted exactly the cycles that the screen takes for it, and that is also the
furthest that the beam can be from line 144. So the cycles cannot run out before the beam gets
there: what is left of the grant is never less than the way that is left (`untilVblank`), and
the last step overshoots line 144 before it overshoots the grant.

* `Smooth` says that nothing disturbs the beam in the next step: it uses up as much of the way
  as it takes time, or it enters line 144 (`untilVblank_step`).
* So a frame through smooth steps ends with the step that enters line 144, and with no other
  (`frame_of_takes`). This asks that the cycle counter has not wrapped, since the screen waits for
  it to come round otherwise.
-/

set_option autoImplicit false

namespace Handheld

/-! ## What the screen raises -/

namespace Hardware

/-- How far the screen gets when it catches up. -/
def screen (hw : Hardware) (speed : UInt8) : LcdProgress :=
  Lcd.update hw.lineStart hw.now speed (hw.stored .lcdc) (hw.stored .lyc)
    ⟨hw.stored .ly, hw.stored .stat⟩

/-- The devices that catch up before the screen do not touch it. -/
theorem screen_updateSerial (hw : Hardware) (speed : UInt8) :
    hw.updateTimer.updateSerial.screen speed = hw.screen speed := by
  obtain ⟨start, time, line, status, others⟩ := hw.updateSerial_updateTimer_screen
  unfold screen
  rw [start, time, line, status, others .lcdc rfl, others .lyc rfl]

/-- A frame is ended by the screen alone. -/
theorem update_frame (hw : Hardware) (now : UInt64) (speed : UInt8) :
    (hw.update now speed).2 = ({ hw with now }.screen speed).frame := by
  rw [update_eq]
  rfl

/-- A screen that is off stands at the start of line 0. -/
theorem update_of_off (hw : Hardware) (now : UInt64) (speed : UInt8)
    (off : hw.stored .lcdc &&& 0x80 = 0) :
    let next := (hw.update now speed).1
    next.lineStart = now ∧ next.stored .ly = 0 := by
  intro next
  obtain ⟨-, -, -, lineStart, lcd, -⟩ := hw.devices.update_parts (hw.controls speed) now
  have still := Lcd.update_of_off off hw.lineStart now speed (hw.stored .lyc)
    ⟨hw.stored .ly, hw.stored .stat⟩
  unfold next
  rw [update_eq]
  constructor
  · rw [(hw.withDevices_parts _).2.2.2.1, lineStart]
    exact congrArg LcdProgress.lineStart still
  · rw [stored_withDevices, lcd]
    exact congrArg (fun progress => progress.registers.line) still

/-- What the screen asks for is requested when all devices have caught up. -/
theorem requested_update {hw : Hardware} {now : UInt64} {speed : UInt8} {source : Interrupt}
    (raised : ({ hw with now }.screen speed).interrupts &&& source.mask ≠ 0) :
    (hw.update now speed).1.Requested source := by
  obtain ⟨-, -, -, -, -, requests⟩ := hw.devices.update_parts (hw.controls speed) now
  rw [requested_iff, update_eq, stored_withDevices]
  dsimp only
  rw [requests, or_and_mask, UInt8.and_assoc, UInt8.and_comm 0x1F, mask_requests]
  intro none
  exact raised (UInt8.or_eq_zero_iff.mp none).2

end Hardware

namespace Machine

/-! ## The beam after any steps -/

/-- A machine that is stuck stays so. -/
theorem acted_of_stuck {m : Machine} (stuck : m.acted = none) : m.step.1.acted = none := by
  obtain ⟨-, cpu, bus⟩ := step_of_not_acted stuck
  have alike : System.Agree Eq m.serviceInterrupts.1.journal m.step.1.journal
      m.serviceInterrupts.1 m.step.1.toSystem := ⟨cpu.symm, bus.symm, #[], by simp, by simp⟩
  have checked := alike.serviceInterrupts.2
  rw [m.serviceInterrupts_again] at checked
  have decoded := checked.decode m.serviceInterrupts.1.cpu.pc
  simp only [acted] at stuck ⊢
  rw [← checked.cpu, ← decoded.1]
  split at stuck
  next => contradiction
  next awake =>
    rw [if_neg awake]
    split at stuck
    next illegal => rw [if_pos illegal]
    next => contradiction

/-- A machine whose screen is off is at the start of a line after each step. -/
theorem atLineStart_of_unlit {m : Machine} {s : System Hardware} (acts : m.acted = some s)
    (two : m.cpu.speed = 1 ∨ m.cpu.speed = 2)
    (off : m.step.1.bus.stored .lcdc &&& 0x80 = 0) : m.step.1.AtLineStart := by
  obtain ⟨n, few, proceeds⟩ := proceeds_of_acted acts
  obtain ⟨start, heard, -⟩ := finishStep_parts s m.cpu.cycles m.quit
  have before : s.bus.stored .lcdc &&& 0x80 = 0 := by
    rw [step_of_acted acts, heard] at off
    rwa [← (s.bus.caughtUp_update s.cpu.cycles s.cpu.speed).stored .lcdc rfl]
  obtain ⟨begins, line⟩ := s.bus.update_of_off s.cpu.cycles s.cpu.speed before
  rw [step_of_acted acts]
  constructor
  · rw [finishStep_cpu]
    exact proceeds.speed_cases two
  · rw [heard, line]
    decide
  · rw [start, finishStep_cpu, begins]

/-- A step that does not wrap the counter has room for what it reports. -/
theorem room_of_up {m : Machine} (lit : m.Lit) (up : m.cpu.cycles ≤ m.step.1.cpu.cycles) :
    m.cpu.cycles.toNat + m.spent < 2 ^ 64 := by
  obtain ⟨s, acts, few, proceeds⟩ := acted_of_lit lit
  rw [step_of_acted acts, finishStep_cpu] at up
  exact proceeds.room_of_le (by omega) up

/-- After steps from a reset the screen has entered all lines that are due, unless the machine
is stuck. -/
theorem onBeam_of_steps {m start : Machine} (path : Steps (· ≤ ·) m.reset start) :
    start.OnBeam ∨ start.acted = none := by
  induction path with
  | refl => exact .inl m.atLineStart_reset.onBeam
  | @tail before next path last ih =>
    obtain ⟨rfl, up⟩ := last
    obtain onBeam | stuck := ih
    · cases acts : before.acted with
      | none => exact .inr (acted_of_stuck acts)
      | some s =>
        left
        by_cases off : before.step.1.bus.stored .lcdc &&& 0x80 = 0
        · exact (atLineStart_of_unlit acts onBeam.speed off).onBeam
        · have lit : before.Lit := by
            refine ⟨?_, off⟩
            rw [step_of_acted acts]
            rfl
          exact (beam_of_lit onBeam lit (room_of_up lit up)).1
    · exact .inr (acted_of_stuck stuck)

/-! ## A smooth step -/

/-- What the screen raises when it catches up at the end of the next step. -/
def screenRaises (m : Machine) : UInt8 :=
  match m.acted with
  | some s =>
    ({ s.bus with now := s.cpu.cycles }.updateTimer.updateSerial.screen s.cpu.speed).interrupts
  | none => 0

/-- The next step raises the interrupt of a finished picture. -/
def RaisesVblank (m : Machine) : Prop := m.screenRaises &&& Interrupt.vblank.mask ≠ 0

instance : DecidablePred RaisesVblank := fun _ => inferInstanceAs (Decidable (_ ≠ _))

/-- Nothing disturbs the beam in the next step: it succeeds, and the screen is on when the
devices catch up; the speed stays, nobody asks to quit, and the cycle counter does not wrap. -/
structure Smooth (m : Machine) : Prop where
  lit : m.Lit
  speed : m.step.1.cpu.speed = m.cpu.speed
  calm : m.step.1.quit = false
  up : m.cpu.cycles ≤ m.step.1.cpu.cycles

/-- The half dots until the screen enters line 144. -/
def untilVblank (m : Machine) : Nat :=
  912 * ((297 - (m.bus.stored .ly).toNat) % 154 + 1) - m.beam

/-- Line 144 is ahead, and no further than a frame. -/
theorem OnBeam.untilVblank {m : Machine} (onBeam : m.OnBeam) :
    0 < m.untilVblank ∧ m.untilVblank ≤ 140448 := by
  have within := onBeam.within
  unfold Machine.untilVblank
  omega

/-- A frame is finished, and its interrupt raised, by the step that enters line 144. -/
theorem frame_of_smooth {m : Machine} (onBeam : m.OnBeam) (smooth : m.Smooth) :
    (m.step.1.frameDone = true ↔ m.linesEntered = 1 ∧ (m.bus.stored .ly).toNat = 143) ∧
      (m.RaisesVblank ↔ m.step.1.frameDone = true) ∧
      (m.RaisesVblank → m.step.1.bus.Requested .vblank) := by
  have room := room_of_up smooth.lit smooth.up
  have few := linesEntered_le_one onBeam smooth.lit room (if_pos smooth.speed)
  obtain ⟨entered, -, -⟩ := linesEntered_of_lit onBeam smooth.lit room
  obtain ⟨s, acts, -, proceeds⟩ := acted_of_lit smooth.lit
  have on := smooth.lit.on acts
  have inside : (s.bus.stored .ly).toNat < 154 := by
    rw [proceeds.screen.2]
    exact onBeam.line
  have due : periodsGone (Lcd.dotsPerLine * Lcd.speedFactor s.cpu.speed) s.bus.lineStart
      s.cpu.cycles = m.linesEntered := by
    rw [entered, step_of_acted acts, finishStep_cpu]
    exact periodsGone_of_lit onBeam acts smooth.lit room
  let progress := { s.bus with now := s.cpu.cycles }.screen s.cpu.speed
  have counted : progress.frame = true ↔
      periodsGone (Lcd.dotsPerLine * Lcd.speedFactor s.cpu.speed) s.bus.lineStart
        s.cpu.cycles = 1 ∧ (s.bus.stored .ly).toNat = 143 := by
    -- At most one line is due, and line 144 comes after line 143 only.
    have last : ((s.bus.stored .ly).toNat + 1) % 154 = 144 ↔ (s.bus.stored .ly).toNat = 143 := by
      omega
    have first := Lcd.enters_of_le_one (due ▸ few) (s.bus.stored .ly).toNat 144
    exact (Lcd.frame_update on _ _ _ _ inside).trans (first.trans (and_congr_right' last))
  have noted : Lcd.Noted progress := Lcd.noted_update on ..
  have frame : m.step.1.frameDone = progress.frame := by
    rw [step_of_acted acts, finishStep_frameDone, Hardware.update_frame]
  have raised : m.screenRaises = progress.interrupts := by
    simp only [screenRaises, acts, Hardware.screen_updateSerial, progress]
  rw [due, proceeds.screen.2] at counted
  unfold RaisesVblank
  rw [frame, raised]
  refine ⟨counted, noted, ?_⟩
  intro raises
  have requested := Hardware.requested_update raises
  obtain ⟨-, stored, -⟩ := finishStep_parts s m.cpu.cycles m.quit
  rw [Hardware.requested_iff] at requested ⊢
  rw [step_of_acted acts, stored]
  exact requested

/-- A smooth step enters line 144, or it comes nearer to it by the half dots that go by. -/
theorem untilVblank_step {m : Machine} (onBeam : m.OnBeam) (smooth : m.Smooth) :
    m.step.1.OnBeam ∧
      ((m.step.1.frameDone = true ∧ (m.bus.stored .ly).toNat = 143 ∧
          (m.step.1.bus.stored .ly).toNat = 144) ∨
        (m.step.1.frameDone = false ∧
          m.step.1.untilVblank + m.halfDots = m.untilVblank)) := by
  have room := room_of_up smooth.lit smooth.up
  have still : m.displacement = 0 := if_pos smooth.speed
  have few := linesEntered_le_one onBeam smooth.lit room still
  obtain ⟨-, -, -, -, line⟩ := step_of_lit onBeam smooth.lit room
  obtain ⟨entered, -, -⟩ := linesEntered_of_lit onBeam smooth.lit room
  obtain ⟨next, moved⟩ := beam_of_lit onBeam smooth.lit room
  obtain ⟨done, -, -⟩ := frame_of_smooth onBeam smooth
  have inside := onBeam.line
  have within := onBeam.within
  have nextWithin := next.within
  rw [← entered] at line
  refine ⟨next, ?_⟩
  by_cases last : m.linesEntered = 1 ∧ (m.bus.stored .ly).toNat = 143
  · left
    obtain ⟨one, here⟩ := last
    refine ⟨done.mpr ⟨one, here⟩, here, ?_⟩
    rw [line, one, here]
  · right
    refine ⟨Bool.eq_false_iff.mpr fun finished => last (done.mp finished), ?_⟩
    unfold untilVblank
    omega

/-- At a steady speed the half dots of a step, times the speed, are twice its cycles. -/
theorem speed_mul_halfDots {m : Machine} (two : m.cpu.speed = 1 ∨ m.cpu.speed = 2)
    (same : m.step.1.cpu.speed = m.cpu.speed) :
    m.cpu.speed.toNat * m.halfDots = 2 * m.spent := by
  unfold halfDots
  rw [same]
  obtain single | double := two
  · rw [single]
    exact Nat.one_mul _
  · rw [double]
    rfl

/-! ## A frame -/

/-- The step that enters line 144 is step `n` of a loop, counted from zero: the loop gets there,
it ends there, and no step before raises the interrupt of the finished picture. -/
structure ReachesVblank (loop : Loop Unit) (m : Machine) (n : Nat) : Prop where
  going : ∀ k ≤ n, loop.before (m.after k) = none
  line : (m.after n).read 0xFF44 = 143 ∧ (m.after (n + 1)).read 0xFF44 = 144
  done : loop.after (m.after (n + 1)) = some ()
  raises : ∀ k ≤ n, (m.after k).RaisesVblank ↔ k = n
  requested : (m.after (n + 1)).bus.Requested .vblank

/-- A read of the line register gives the line. -/
theorem read_line (m : Machine) : m.read 0xFF44 = m.bus.stored .ly := rfl

namespace ReachesVblank

variable {granted start : UInt64} {m : Machine}

/-- The step enters line 144. -/
theorem now (onBeam : m.OnBeam) (smooth : m.Smooth)
    (going : (frameLoop granted start).before m = none) (finished : m.step.1.frameDone = true) :
    ReachesVblank (frameLoop granted start) m 0 := by
  obtain ⟨-, raises, requested⟩ := frame_of_smooth onBeam smooth
  have entering := (untilVblank_step onBeam smooth).2
  rw [finished] at entering
  obtain ⟨-, before, line⟩ | ⟨undone, -⟩ := entering
  · constructor
    · intro k first
      obtain rfl := Nat.le_zero.mp first
      exact going
    · rw [read_line, read_line]
      exact ⟨UInt8.toNat_inj.mp before, UInt8.toNat_inj.mp line⟩
    · exact if_pos finished
    · intro k first
      obtain rfl := Nat.le_zero.mp first
      exact iff_of_true (raises.mpr finished) rfl
    · exact requested (raises.mpr finished)
  · contradiction

/-- A step that does not finish the picture is one more on the way. -/
theorem later {n : Nat} (next : ReachesVblank (frameLoop granted start) m.step.1 n)
    (going : (frameLoop granted start).before m = none) (silent : ¬m.RaisesVblank) :
    ReachesVblank (frameLoop granted start) m (n + 1) := by
  have shift := m.after_step
  constructor
  · rintro (_ | k) within
    · exact going
    · rw [← shift]
      exact next.going k (Nat.le_of_succ_le_succ within)
  · rw [← shift, ← shift]
    exact next.line
  · rw [← shift]
    exact next.done
  · rintro (_ | k) within
    · exact iff_of_false silent (Nat.succ_ne_zero n).symm
    · rw [← shift, next.raises k (Nat.le_of_succ_le_succ within), Nat.add_right_cancel_iff]
  · rw [← shift]
    exact next.requested

end ReachesVblank

/-- What is left of a frame's grant of cycles since `start` is worth no less than the way that is
left. -/
def InTime (m : Machine) (start : UInt64) : Prop :=
  2 * m.gone start + m.cpu.speed.toNat * m.untilVblank ≤ 140448 * m.cpu.speed.toNat

/-- A machine in time has not used up its frame. -/
theorem InTime.gone_lt {m : Machine} {start : UInt64} (inTime : m.InTime start)
    (onBeam : m.OnBeam) : m.gone start < 70224 * m.cpu.speed.toNat := by
  have ahead := onBeam.untilVblank.1
  have way := Nat.mul_pos (speed_pos onBeam.speed) ahead
  unfold InTime at inTime
  omega

/-- A smooth step that does not get to line 144 uses up as much of the grant as of the way. -/
theorem InTime.step {m : Machine} {start : UInt64} {cycles : UInt32} (inTime : m.InTime start)
    (onBeam : m.OnBeam) (smooth : m.Smooth) (stepped : m.step.2 = .ok cycles)
    (nearer : m.step.1.untilVblank + m.halfDots = m.untilVblank) : m.step.1.InTime start := by
  have early := inTime.gone_lt onBeam
  have slow := m.cpu.speed.toNat_lt
  have later := gone_of_step start stepped (by omega)
  have reported : m.spent = cycles.toNat := by
    unfold spent
    rw [stepped]
  have gone := speed_mul_halfDots onBeam.speed smooth.speed
  unfold InTime at *
  rw [← nearer, Nat.mul_add] at inTime
  rw [smooth.speed]
  omega

/-- A frame through smooth steps gets to line 144. The induction is on the steps that its loop
takes: as long as there is some of the way left, there is some of the grant left as well. -/
theorem frame_of_takes {granted start : UInt64} {m : Machine} {steps : Nat}
    {outcome : Machine × Except StepError Unit}
    (takes : (frameLoop granted start).Takes m steps outcome)
    (smooth : ∀ k < steps, (m.after k).Smooth) (onBeam : m.OnBeam) (calm : m.quit = false)
    (grant : granted.toNat = 70224 * m.cpu.speed.toNat) (inTime : m.InTime start) :
    ∃ n, steps = n + 1 ∧ outcome = (m.after steps, .ok ()) ∧
      ReachesVblank (frameLoop granted start) m n := by
  induction takes with
  | @ends m result finished =>
    -- As long as line 144 is ahead the grant is not used up.
    have early := inTime.gone_lt onBeam
    rw [← grant] at early
    rw [frameLoop_going_iff.mpr ⟨calm, early⟩] at finished
    contradiction
  | @fails m error going failed =>
    have succeeds := (smooth 0 Nat.one_pos).lit.1
    rw [after_zero, failed] at succeeds
    contradiction
  | @leaves m cycles result going stepped finished =>
    have finished : m.step.1.frameDone = true := by
      by_contra undone
      rw [frameLoop_after_eq_none.mpr (Bool.eq_false_iff.mpr undone)] at finished
      contradiction
    exact ⟨0, rfl, rfl, .now onBeam (smooth 0 Nat.one_pos) going finished⟩
  | @goesOn m cycles n outcome going stepped more rest ih =>
    have first := smooth 0 (Nat.succ_pos n)
    rw [after_zero] at first
    have undone := frameLoop_after_eq_none.mp more
    obtain ⟨-, raises, -⟩ := frame_of_smooth onBeam first
    obtain ⟨next, ⟨finished, -, -⟩ | ⟨-, nearer⟩⟩ := untilVblank_step onBeam first
    · rw [undone] at finished
      contradiction
    · have later : ∀ k < n, (m.step.1.after k).Smooth := by
        intro k within
        rw [after_step]
        exact smooth (k + 1) (Nat.succ_lt_succ within)
      rw [← first.speed] at grant
      obtain ⟨last, rfl, ends, reaches⟩ :=
        ih later next first.calm grant (inTime.step onBeam first stepped nearer)
      refine ⟨last + 1, rfl, ?_, reaches.later going ?_⟩
      · rw [ends, after_step]
      · rw [raises, undone]
        exact Bool.false_ne_true

/-! ## Frames one after the other -/

/-- Nothing disturbs the beam while the next frame goes by. -/
structure Undisturbed (m : Machine) : Prop where
  calm : m.quit = false
  smooth : ∀ steps outcome,
    (frameLoop m.frameCycles m.cpu.cycles).Takes m steps outcome →
      ∀ k < steps, (m.after k).Smooth

/-- On a path from reset the speed is single or double. -/
theorem speed_of_steps {m start : Machine} (path : Steps (· ≤ ·) m.reset start) :
    start.cpu.speed = 1 ∨ start.cpu.speed = 2 := by
  have loose : Steps (fun _ _ => True) m.reset start :=
    Relation.ReflTransGen.mono (fun _ _ step => ⟨step.1, trivial⟩) _ _ path
  exact (invariant_sameMode.steps loose (invariant_sameMode.reset m)).speed

/-- A frame that nothing disturbs is not the frame of a machine that is stuck. -/
theorem onBeam_of_undisturbed {m start : Machine} (path : Steps (· ≤ ·) m.reset start)
    (undisturbed : start.Undisturbed) : start.OnBeam := by
  obtain onBeam | stuck := onBeam_of_steps path
  · exact onBeam
  · obtain ⟨⟨error, fails⟩, -, -⟩ := step_of_not_acted stuck
    have two := speed_of_steps path
    have granted : start.gone start.cpu.cycles < start.frameCycles.toNat := by
      rw [gone_start, toNat_frameCycles two]
      exact Nat.mul_pos (by decide) (speed_pos two)
    have takes := Loop.Takes.fails (frameLoop_going_iff.mpr ⟨undisturbed.calm, granted⟩) fails
    have succeeds := (undisturbed.smooth 1 _ takes 0 Nat.one_pos).lit.1
    rw [after_zero, fails] at succeeds
    contradiction

/-- A frame that nothing disturbs ends with the step that enters line 144. -/
theorem frame_of_undisturbed {m start : Machine} (path : Steps (· ≤ ·) m.reset start)
    (undisturbed : start.Undisturbed) :
    ∃ n, start.stepFrame = (start.after (n + 1), .ok ()) ∧
      ReachesVblank (frameLoop start.frameCycles start.cpu.cycles) start n ∧
      ∀ k < n + 1, (start.after k).Smooth := by
  have onBeam := onBeam_of_undisturbed path undisturbed
  obtain ⟨steps, takes⟩ := stepFrame_takes onBeam.speed
  have smooth := undisturbed.smooth steps _ takes
  have inTime : start.InTime start.cpu.cycles := by
    unfold InTime
    rw [gone_start, Nat.mul_comm 140448]
    exact (Nat.zero_add _).trans_le (Nat.mul_le_mul_left _ onBeam.untilVblank.2)
  obtain ⟨n, rfl, ends, reaches⟩ := frame_of_takes takes smooth onBeam undisturbed.calm
    (toNat_frameCycles onBeam.speed) inTime
  exact ⟨n, ends, reaches, smooth⟩

/-- The machine after a number of frames. -/
def afterFrames (m : Machine) : Nat → Machine
  | 0 => m
  | n + 1 => (m.afterFrames n).stepFrame.1

/-- Smooth steps are a path on which the counter goes up. -/
theorem steps_of_smooth {m : Machine} (n : Nat) (smooth : ∀ k < n, (m.after k).Smooth) :
    Steps (· ≤ ·) m (m.after n) := by
  induction n with
  | zero => exact .refl
  | succ n ih =>
    have path := ih fun k within => smooth k (Nat.lt_succ_of_lt within)
    exact path.tail ⟨rfl, (smooth n (Nat.lt_succ_self n)).up⟩

/-- Undisturbed frames are a path on which the counter goes up. -/
theorem path_of_undisturbed {m start : Machine} (path : Steps (· ≤ ·) m.reset start) (i : Nat)
    (undisturbed : ∀ j < i, (start.afterFrames j).Undisturbed) :
    Steps (· ≤ ·) m.reset (start.afterFrames i) := by
  induction i with
  | zero => exact path
  | succ i ih =>
    have before := ih fun j earlier => undisturbed j (Nat.lt_succ_of_lt earlier)
    obtain ⟨n, ends, -, smooth⟩ := frame_of_undisturbed before (undisturbed i (Nat.lt_succ_self i))
    have next : start.afterFrames (i + 1) = (start.afterFrames i).after (n + 1) :=
      congrArg Prod.fst ends
    rw [next]
    exact before.trans (steps_of_smooth (n + 1) smooth)

/-- A frame that gets to line 144 raises its interrupt once. -/
theorem ReachesVblank.count {loop : Loop Unit} {m : Machine} {n : Nat}
    (reaches : ReachesVblank loop m n) :
    Nat.count (fun k => (m.after k).RaisesVblank) (n + 1) = 1 := by
  have none : Nat.count (fun k => (m.after k).RaisesVblank) n = 0 := by
    rw [Nat.count_iff_forall_not]
    intro k earlier raises
    exact Nat.ne_of_lt earlier ((reaches.raises k (Nat.le_of_lt earlier)).mp raises)
  have last : (m.after n).RaisesVblank := (reaches.raises n (Nat.le_refl n)).mpr rfl
  rw [Nat.count_succ, none, if_pos last]

/-- Wherever steps lead from a reset before the cycle counter wraps: a frame that nothing disturbs
ends because its last step enters line 144, with some of its cycles left before that step. The
line counter reads 144 then, and no other step of the frame raises the interrupt. So as many
frames in a row raise it as often as there are frames. -/
theorem frames_end_at_vblank (m : Machine) {start : Machine} (path : Steps (· ≤ ·) m.reset start)
    (frames : Nat) (undisturbed : ∀ i < frames, (start.afterFrames i).Undisturbed) :
    (∀ i < frames,
      let call := start.afterFrames i
      ∃ n, call.stepFrame = (call.after (n + 1), .ok ()) ∧
        ReachesVblank (frameLoop call.frameCycles call.cpu.cycles) call n) ∧
      ∃ steps, start.afterFrames frames = start.after steps ∧
        Nat.count (fun k => (start.after k).RaisesVblank) steps = frames := by
  have each : ∀ i < frames, ∃ n,
      (start.afterFrames i).stepFrame = ((start.afterFrames i).after (n + 1), .ok ()) ∧
        ReachesVblank (frameLoop (start.afterFrames i).frameCycles
          (start.afterFrames i).cpu.cycles) (start.afterFrames i) n := by
    intro i within
    have here := path_of_undisturbed path i fun j earlier =>
      undisturbed j (Nat.lt_trans earlier within)
    obtain ⟨n, ends, reaches, -⟩ := frame_of_undisturbed here (undisturbed i within)
    exact ⟨n, ends, reaches⟩
  refine ⟨each, ?_⟩
  clear undisturbed
  induction frames with
  | zero => exact ⟨0, rfl, Nat.count_zero _⟩
  | succ frames ih =>
    obtain ⟨steps, reached, count⟩ := ih fun i within => each i (Nat.lt_succ_of_lt within)
    obtain ⟨n, ends, reaches⟩ := each frames (Nat.lt_succ_self frames)
    have once := reaches.count
    refine ⟨steps + (n + 1), ?_, ?_⟩
    · rw [after_add, ← reached]
      exact congrArg Prod.fst ends
    · rw [reached] at once
      simp only [← after_add] at once
      rw [Nat.count_add, count, once]

/-! ## The frames of a machine that waits -/

/-- A loop goes on until it ends, and it ends where its steps lead. -/
theorem Loop.Takes.steps {α : Type} {loop : Loop α} {m : Machine} {n : Nat}
    {outcome : Machine × Except StepError α} (takes : loop.Takes m n outcome) :
    outcome.1 = m.after n ∧ ∀ k < n, loop.before (m.after k) = none := by
  induction takes with
  | ends => exact ⟨rfl, fun k before => absurd before (Nat.not_lt_zero k)⟩
  | fails going | leaves going =>
    refine ⟨rfl, ?_⟩
    intro k first
    obtain rfl := Nat.lt_one_iff.mp first
    exact going
  | @goesOn m cycles n outcome going _ _ _ ih =>
    rw [← after_step]
    refine ⟨ih.1, ?_⟩
    rintro (_ | k) within
    · exact going
    · rw [← after_step]
      exact ih.2 k (Nat.lt_of_succ_lt_succ within)

namespace Waits

variable {m : Machine}

/-- A machine that waits moves on smoothly. -/
theorem smooth (waits : m.Waits) (room : m.cpu.cycles.toNat + 4 < 2 ^ 64) : m.Smooth := by
  obtain ⟨stepped, next, cpu⟩ := waits.step
  refine ⟨⟨?_, ?_⟩, ?_, next.calm, ?_⟩
  · rw [stepped]
    rfl
  · rw [next.lit]
    decide
  · rw [cpu]
  · have later : (m.cpu.cycles + UInt64.ofNat 4).toNat = _ := toNat_add_cycles room
    rw [cpu, UInt64.le_iff_toNat_le]
    show _ ≤ (m.cpu.cycles + UInt64.ofNat 4).toNat
    omega

/-- A machine that waits goes on waiting, four cycles a step. -/
theorem after (waits : m.Waits) (n : Nat) :
    (m.after n).Waits ∧ (m.after n).cpu.speed = m.cpu.speed ∧
      (m.after n).cpu.cycles = m.cpu.cycles + UInt64.ofNat (4 * n) := by
  induction n with
  | zero => exact ⟨waits, rfl, (UInt64.add_zero _).symm⟩
  | succ n ih =>
    obtain ⟨here, speed, cycles⟩ := ih
    obtain ⟨-, next, cpu⟩ := here.step
    rw [after_succ, cpu]
    refine ⟨next, speed, ?_⟩
    show (m.after n).cpu.cycles + UInt64.ofNat 4 = _
    rw [cycles, UInt64.add_assoc, ← UInt64.ofNat_add]
    rfl

/-- With steps of four cycles a frame is over after a quarter as many steps. -/
theorem steps_le (waits : m.Waits) (single : m.cpu.speed = 1) {steps : Nat}
    {outcome : Machine × Except StepError Unit}
    (takes : (frameLoop m.frameCycles m.cpu.cycles).Takes m steps outcome) : steps ≤ 17556 := by
  by_contra more
  have going := takes.steps.2 17556 (Nat.lt_of_not_le more)
  have early := (frameLoop_going_iff.mp going).2
  obtain ⟨-, -, cycles⟩ := waits.after 17556
  have gone := gone_later m.cpu.cycles cycles (by rw [gone_start]; decide)
  rw [gone, gone_start, toNat_frameCycles (.inl single), single] at early
  exact absurd early (by decide)

/-- A machine that waits at single speed has an undisturbed frame. -/
theorem undisturbed (waits : m.Waits) (single : m.cpu.speed = 1)
    (room : m.cpu.cycles.toNat + 70228 < 2 ^ 64) : m.Undisturbed := by
  refine ⟨waits.calm, ?_⟩
  intro steps outcome takes k within
  have few := waits.steps_le single takes
  obtain ⟨here, -, cycles⟩ := waits.after k
  apply here.smooth
  rw [cycles, toNat_add_cycles (by omega)]
  omega

/-- After a frame the machine waits on. -/
theorem stepFrame (waits : m.Waits) (single : m.cpu.speed = 1)
    (room : m.cpu.cycles.toNat + 70224 < 2 ^ 64) :
    m.stepFrame.1.Waits ∧ m.stepFrame.1.cpu.speed = 1 ∧
      m.stepFrame.1.cpu.cycles.toNat ≤ m.cpu.cycles.toNat + 70224 := by
  obtain ⟨steps, takes⟩ := stepFrame_takes (.inl single)
  have few := waits.steps_le single takes
  obtain ⟨there, speed, cycles⟩ := waits.after steps
  rw [takes.steps.1, cycles, toNat_add_cycles (by omega)]
  exact ⟨there, speed.trans single, by omega⟩

/-- A machine that waits at single speed has two undisturbed frames. -/
theorem two_frames (waits : m.Waits) (single : m.cpu.speed = 1)
    (room : m.cpu.cycles.toNat + 140452 < 2 ^ 64) :
    ∀ i < 2, (m.afterFrames i).Undisturbed := by
  obtain ⟨waitsOn, stillSingle, later⟩ := waits.stepFrame single (by omega)
  rintro (_ | _ | i) within
  · exact waits.undisturbed single (by omega)
  · exact waitsOn.undisturbed stillSingle (by omega)
  · omega

end Waits

/-- A machine that waits sees two pictures finished in two frames. -/
theorem frames_end_at_vblank_while_waiting :
    let m := assemble halts #[]
    let start := m.reset.step.1
    Steps (· ≤ ·) m.reset start ∧ (∀ i < 2, (start.afterFrames i).Undisturbed) ∧
      (∀ i < 2,
        let call := start.afterFrames i
        ∃ n, call.stepFrame = (call.after (n + 1), .ok ()) ∧
          ReachesVblank (frameLoop call.frameCycles call.cpu.cycles) call n) ∧
      ∃ steps, start.afterFrames 2 = start.after steps ∧
        Nat.count (fun k => (start.after k).RaisesVblank) steps = 2 := by
  obtain ⟨waits, single, cycles⟩ := haltMachine_waits
  rw [haltMachine] at waits single cycles
  have room : (assemble halts #[]).reset.step.1.cpu.cycles.toNat + 140452 < 2 ^ 64 := by
    rw [cycles]
    decide
  intro m start
  have path : Steps (· ≤ ·) m.reset start := by
    apply Relation.ReflTransGen.single
    refine ⟨rfl, ?_⟩
    rw [reset_cycles]
    exact UInt64.zero_le
  have undisturbed := waits.two_frames single room
  obtain ⟨each, count⟩ := frames_end_at_vblank m path 2 undisturbed
  exact ⟨path, undisturbed, each, count⟩

end Machine

end Handheld
