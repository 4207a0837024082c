import Handheld.Device.Lcd
import Handheld.Proofs.Device.Timer
import Handheld.Proofs.Word

/-!
# Catching up with the screen twice

A screen that catches up in two stretches enters the lines of the first and then those
of the second. At the end of each stretch it also compares the line it is in with the
one waited for, and it tells the mode of the present dot. Neither makes a difference
later:

* the comparison finds the status register settled, as the line was compared when it
  was entered or, if no line was entered, in an earlier stretch;
* no line and no comparison depends on the mode, and each telling replaces the last.

What was raised before is carried along and has no effect on what follows.
-/

set_option autoImplicit false

namespace Handheld.Lcd

/-! ## The two outcomes of a comparison, and the parts of a line -/

/-- On the awaited line the coincidence bit is set. -/
theorem compareLine_here {awaited : UInt8} (progress : LcdProgress)
    (same : progress.registers.line = awaited) :
    compareLine awaited progress =
      { progress with
        registers := ⟨progress.registers.line, progress.registers.status ||| coincidenceBit⟩
        interrupts :=
          if progress.registers.status &&& coincidenceBit == 0 &&
              progress.registers.status &&& coincidenceInterruptBit != 0 then
            progress.interrupts ||| Interrupt.lcdStat.mask
          else
            progress.interrupts } :=
  if_pos same

/-- On any other line the coincidence bit is clear. -/
theorem compareLine_elsewhere {awaited : UInt8} (progress : LcdProgress)
    (other : progress.registers.line ≠ awaited) :
    compareLine awaited progress =
      { progress with
        registers :=
          ⟨progress.registers.line, progress.registers.status &&& ~~~ coincidenceBit⟩ } :=
  if_neg other

/-- The comparison does not move the line. -/
theorem compareLine_line (awaited : UInt8) (progress : LcdProgress) :
    (compareLine awaited progress).registers.line = progress.registers.line := by
  by_cases same : progress.registers.line = awaited
  · rw [compareLine_here _ same]
  · rw [compareLine_elsewhere _ same]

/-- The comparison does not move the start of the line. -/
theorem compareLine_lineStart (awaited : UInt8) (progress : LcdProgress) :
    (compareLine awaited progress).lineStart = progress.lineStart := by
  by_cases same : progress.registers.line = awaited
  · rw [compareLine_here _ same]
  · rw [compareLine_elsewhere _ same]

/-- The line counter moves on. -/
def entered (lineTime : UInt64) (progress : LcdProgress) : LcdProgress :=
  { progress with
    lineStart := progress.lineStart + lineTime
    registers :=
      { progress.registers with line := (progress.registers.line + 1) % linesPerFrame } }

/-- The first line below the picture finishes a frame. -/
def frameNoted (progress : LcdProgress) : LcdProgress :=
  if progress.registers.line = visibleLines then
    { progress with
      interrupts := progress.interrupts ||| Interrupt.vblank.mask
      frame := true }
  else
    progress

/-- A line is entered, compared, and looked at for the end of the picture. -/
theorem nextLine_eq (lineTime : UInt64) (awaited : UInt8) (progress : LcdProgress) :
    nextLine lineTime awaited progress =
      frameNoted (compareLine awaited (entered lineTime progress)) := by
  unfold frameNoted
  rw [compareLine_line]
  rfl

/-- Noting the end of the picture leaves the registers alone. -/
theorem frameNoted_registers (progress : LcdProgress) :
    (frameNoted progress).registers = progress.registers := by
  unfold frameNoted
  split <;> rfl

/-- Noting the end of the picture does not move the start of the line. -/
theorem frameNoted_lineStart (progress : LcdProgress) :
    (frameNoted progress).lineStart = progress.lineStart := by
  unfold frameNoted
  split <;> rfl

/-! ## Lines after lines -/

/-- Lines may be passed in two stages. -/
theorem nextLines_add (lineTime : UInt64) (awaited : UInt8) (m n : Nat) (progress : LcdProgress) :
    nextLines lineTime awaited (m + n) progress =
      nextLines lineTime awaited n (nextLines lineTime awaited m progress) := by
  induction m generalizing progress with
  | zero => rw [Nat.zero_add]; rfl
  | succ m ih =>
    rw [Nat.succ_add]
    exact ih _

/-- Each line begins one line time after the last. -/
theorem nextLines_lineStart (lineTime : UInt64) (awaited : UInt8) (n : Nat)
    (progress : LcdProgress) :
    (nextLines lineTime awaited n progress).lineStart =
      progress.lineStart + UInt64.ofNat n * lineTime := by
  induction n generalizing progress with
  | zero => simp [nextLines]
  | succ n ih =>
    have next : (nextLine lineTime awaited progress).lineStart = progress.lineStart + lineTime := by
      rw [nextLine_eq, frameNoted_lineStart, compareLine_lineStart]
      rfl
    rw [nextLines, ih, next, periods_succ]

/-- What makes no difference to one line makes none to any number of lines. -/
theorem nextLines_commutes {lineTime : UInt64} {awaited : UInt8} (f : LcdProgress → LcdProgress)
    (line : ∀ progress,
      nextLine lineTime awaited (f progress) = f (nextLine lineTime awaited progress))
    (n : Nat) (progress : LcdProgress) :
    nextLines lineTime awaited n (f progress) = f (nextLines lineTime awaited n progress) := by
  induction n generalizing progress with
  | zero => rfl
  | succ n ih => rw [nextLines, line, ih, nextLines]

/-! ## A settled comparison -/

/-- The status register tells already whether the line is the one waited for. -/
structure Settled (awaited : UInt8) (registers : LcdRegisters) : Prop where
  here : registers.line = awaited → registers.status ||| coincidenceBit = registers.status
  elsewhere :
    registers.line ≠ awaited → registers.status &&& ~~~ coincidenceBit = registers.status

/-- Where the status register is settled a comparison does nothing. -/
theorem compareLine_of_settled {awaited : UInt8} {progress : LcdProgress}
    (settled : Settled awaited progress.registers) : compareLine awaited progress = progress := by
  by_cases same : progress.registers.line = awaited
  · have set := settled.here same
    have found : progress.registers.status &&& coincidenceBit = coincidenceBit := by
      rw [← set, or_and_self]
    rw [compareLine_here _ same, set, found]
    rfl
  · rw [compareLine_elsewhere _ same, settled.elsewhere same]

/-- A comparison settles the status register. -/
theorem settled_compareLine (awaited : UInt8) (progress : LcdProgress) :
    Settled awaited (compareLine awaited progress).registers := by
  by_cases same : progress.registers.line = awaited
  · rw [compareLine_here _ same]
    exact ⟨fun _ => by rw [UInt8.or_assoc, UInt8.or_self], fun other => absurd same other⟩
  · rw [compareLine_elsewhere _ same]
    exact ⟨fun here => absurd here same, fun _ => by rw [UInt8.and_assoc, UInt8.and_self]⟩

/-- Once settled, the registers stay settled along any number of lines. -/
theorem settled_nextLines (lineTime : UInt64) {awaited : UInt8} (n : Nat) {progress : LcdProgress}
    (settled : Settled awaited progress.registers) :
    Settled awaited (nextLines lineTime awaited n progress).registers := by
  induction n generalizing progress with
  | zero => exact settled
  | succ n ih =>
    apply ih
    rw [nextLine_eq, frameNoted_registers]
    exact settled_compareLine awaited _

/-! ## What was raised before -/

/-- Progress with what was raised before it. -/
def after (progress : LcdProgress) (interrupts : UInt8) (frame : Bool) : LcdProgress :=
  { progress with
    interrupts := interrupts ||| progress.interrupts, frame := frame || progress.frame }

/-- The comparison only adds to what has been raised before. -/
theorem compareLine_after (awaited : UInt8) (progress : LcdProgress) (interrupts : UInt8)
    (frame : Bool) :
    compareLine awaited (after progress interrupts frame) =
      after (compareLine awaited progress) interrupts frame := by
  by_cases same : progress.registers.line = awaited
  · rw [compareLine_here _ same, compareLine_here (after _ _ _) same]
    simp only [after]
    by_cases raises : (progress.registers.status &&& coincidenceBit == 0 &&
        progress.registers.status &&& coincidenceInterruptBit != 0) = true
    · simp only [raises, if_true, UInt8.or_assoc]
    · simp only [raises]
      rfl
  · rw [compareLine_elsewhere _ same, compareLine_elsewhere (after _ _ _) same]
    rfl

/-- Noting the end of the picture only adds to what has been raised before. -/
theorem frameNoted_after (progress : LcdProgress) (interrupts : UInt8) (frame : Bool) :
    frameNoted (after progress interrupts frame) =
      after (frameNoted progress) interrupts frame := by
  by_cases below : progress.registers.line = visibleLines
  · simp only [frameNoted, after, below, if_true, UInt8.or_assoc, Bool.or_true]
  · simp only [frameNoted, after, below, if_false]

/-- Passing lines only adds to what has been raised before. -/
theorem nextLines_after (lineTime : UInt64) (awaited : UInt8) (n : Nat) (progress : LcdProgress)
    (interrupts : UInt8) (frame : Bool) :
    nextLines lineTime awaited n (after progress interrupts frame) =
      after (nextLines lineTime awaited n progress) interrupts frame := by
  refine nextLines_commutes (fun progress => after progress interrupts frame) ?_ n progress
  intro progress
  have entering : entered lineTime (after progress interrupts frame) =
      after (entered lineTime progress) interrupts frame := rfl
  rw [nextLine_eq, nextLine_eq, entering, compareLine_after, frameNoted_after]

/-! ## The mode -/

/-- Progress with the mode bits of the status register cleared. -/
def withoutMode (progress : LcdProgress) : LcdProgress :=
  { progress with
    registers := { progress.registers with status := progress.registers.status &&& ~~~ 0x03 } }

/-- The comparison does not read the mode. -/
theorem compareLine_withoutMode (awaited : UInt8) (progress : LcdProgress) :
    compareLine awaited (withoutMode progress) = withoutMode (compareLine awaited progress) := by
  by_cases same : progress.registers.line = awaited
  · rw [compareLine_here _ same, compareLine_here (withoutMode _) same]
    have bit : progress.registers.status &&& ~~~ 0x03 &&& coincidenceBit =
        progress.registers.status &&& coincidenceBit := UInt8.and_assoc ..
    have enable : progress.registers.status &&& ~~~ 0x03 &&& coincidenceInterruptBit =
        progress.registers.status &&& coincidenceInterruptBit := UInt8.and_assoc ..
    have set : (progress.registers.status ||| coincidenceBit) &&& ~~~ 0x03 =
        (progress.registers.status &&& ~~~ 0x03) ||| coincidenceBit := or_and_mask ..
    simp only [withoutMode, bit, enable, set]
  · rw [compareLine_elsewhere _ same, compareLine_elsewhere (withoutMode _) same]
    simp only [withoutMode]
    rw [UInt8.and_assoc, UInt8.and_comm (~~~ 0x03), ← UInt8.and_assoc]

/-- Noting the end of the picture does not read the mode. -/
theorem frameNoted_withoutMode (progress : LcdProgress) :
    frameNoted (withoutMode progress) = withoutMode (frameNoted progress) := by
  by_cases below : progress.registers.line = visibleLines
  · simp only [frameNoted, withoutMode, below, if_true]
  · simp only [frameNoted, withoutMode, below, if_false]

/-- Passing lines does not read the mode. -/
theorem nextLines_withoutMode (lineTime : UInt64) (awaited : UInt8) (n : Nat)
    (progress : LcdProgress) :
    nextLines lineTime awaited n (withoutMode progress) =
      withoutMode (nextLines lineTime awaited n progress) := by
  refine nextLines_commutes withoutMode ?_ n progress
  intro progress
  have entering : entered lineTime (withoutMode progress) =
      withoutMode (entered lineTime progress) := rfl
  rw [nextLine_eq, nextLine_eq, entering, compareLine_withoutMode, frameNoted_withoutMode]

/-- What the status register tells at the end of a stretch: the mode of the present dot. -/
def tellMode (factor now : UInt64) (progress : LcdProgress) : LcdProgress :=
  { progress with
    registers := ⟨progress.registers.line,
      (progress.registers.status &&& ~~~ 0x03) |||
        modeAt progress.registers.line ((now - progress.lineStart) / factor)⟩ }

/-- The mode told before is of no interest. -/
theorem tellMode_withoutMode (factor now : UInt64) (progress : LcdProgress) :
    tellMode factor now (withoutMode progress) = tellMode factor now progress := by
  unfold tellMode withoutMode
  rw [UInt8.and_assoc, UInt8.and_self]

/-- A mode lies in the two lowest bits. -/
theorem modeAt_mask (line : UInt8) (dot : UInt64) : modeAt line dot &&& ~~~ 0x03 = 0 := by
  unfold modeAt
  split
  · rfl
  · split
    · rfl
    · split <;> rfl

/-- A mode never sets the coincidence bit. -/
theorem modeAt_coincidence (line : UInt8) (dot : UInt64) :
    modeAt line dot &&& ~~~ coincidenceBit = modeAt line dot := by
  unfold modeAt
  split
  · rfl
  · split
    · rfl
    · split <;> rfl

/-- Nothing but the mode changes when the mode is told. -/
theorem withoutMode_tellMode (factor now : UInt64) (progress : LcdProgress) :
    withoutMode (tellMode factor now progress) = withoutMode progress := by
  unfold tellMode withoutMode
  simp only [or_and_mask, modeAt_mask, UInt8.and_assoc, UInt8.and_self, UInt8.or_zero]

/-! ## Catching up -/

/-- The screen after a number of lines, compared once more. -/
def catchUp (lineTime : UInt64) (awaited : UInt8) (lines : Nat) (progress : LcdProgress) :
    LcdProgress :=
  compareLine awaited (nextLines lineTime awaited lines progress)

/-- While the display is off it stays at the beginning of line 0. -/
theorem update_of_off {control : UInt8} (off : control &&& 0x80 = 0) (lineStart now : UInt64)
    (speed awaited : UInt8) (registers : LcdRegisters) :
    update lineStart now speed control awaited registers =
      { lineStart := now, registers := ⟨0, registers.status &&& ~~~ 0x03⟩ } :=
  if_pos off

/-- While the display is on, it passes the lines that are gone and then tells the mode. -/
theorem update_of_on {control : UInt8} (on : control &&& 0x80 ≠ 0) (lineStart now : UInt64)
    (speed awaited : UInt8) (registers : LcdRegisters) :
    update lineStart now speed control awaited registers =
      tellMode (speedFactor speed) now
        (catchUp (dotsPerLine * speedFactor speed) awaited
          (periodsGone (dotsPerLine * speedFactor speed) lineStart now)
          { lineStart, registers }) :=
  if_neg on

/-- From a settled line on, a comparison on the way changes nothing. -/
theorem catchUp_add (lineTime : UInt64) {awaited : UInt8} (m n : Nat) {progress : LcdProgress}
    (settled : Settled awaited progress.registers) :
    catchUp lineTime awaited (m + n) progress =
      catchUp lineTime awaited n (catchUp lineTime awaited m progress) := by
  have reached := compareLine_of_settled (settled_nextLines lineTime m settled)
  simp only [catchUp]
  rw [reached, nextLines_add]

/-- Catching up only adds to what has been raised before. -/
theorem catchUp_after (lineTime : UInt64) (awaited : UInt8) (n : Nat) (progress : LcdProgress)
    (interrupts : UInt8) (frame : Bool) :
    catchUp lineTime awaited n (after progress interrupts frame) =
      after (catchUp lineTime awaited n progress) interrupts frame := by
  unfold catchUp
  rw [nextLines_after, compareLine_after]

/-- Catching up does not read the mode. -/
theorem catchUp_withoutMode (lineTime : UInt64) (awaited : UInt8) (n : Nat)
    (progress : LcdProgress) :
    catchUp lineTime awaited n (withoutMode progress) =
      withoutMode (catchUp lineTime awaited n progress) := by
  unfold catchUp
  rw [nextLines_withoutMode, compareLine_withoutMode]

/-- Catching up moves the start of the line by the lines that it passes. -/
theorem catchUp_lineStart (lineTime : UInt64) (awaited : UInt8) (n : Nat)
    (progress : LcdProgress) :
    (catchUp lineTime awaited n progress).lineStart =
      progress.lineStart + UInt64.ofNat n * lineTime := by
  unfold catchUp
  rw [compareLine_lineStart, nextLines_lineStart]

/-- What follows does not depend on the mode. -/
theorem tellMode_catchUp {lineTime factor now : UInt64} {awaited : UInt8} {n : Nat}
    {progress other : LcdProgress} (same : withoutMode progress = withoutMode other) :
    tellMode factor now (catchUp lineTime awaited n progress) =
      tellMode factor now (catchUp lineTime awaited n other) := by
  rw [← tellMode_withoutMode, ← catchUp_withoutMode, same, catchUp_withoutMode,
    tellMode_withoutMode]

/-- Telling the mode leaves the comparison settled. -/
theorem Settled.tellMode {awaited : UInt8} {progress : LcdProgress}
    (settled : Settled awaited progress.registers) (factor now : UInt64) :
    Settled awaited (tellMode factor now progress).registers := by
  obtain ⟨start, ⟨line, status⟩, interrupts, frame⟩ := progress
  have set : (status ||| coincidenceBit) &&& ~~~ 0x03 = (status &&& ~~~ 0x03) ||| coincidenceBit :=
    or_and_mask ..
  have clear : status &&& ~~~ coincidenceBit &&& ~~~ 0x03 =
      status &&& ~~~ 0x03 &&& ~~~ coincidenceBit := by
    rw [UInt8.and_assoc, UInt8.and_comm (~~~ coincidenceBit), ← UInt8.and_assoc]
  constructor
  · intro here
    have kept : status ||| coincidenceBit = status := settled.here here
    rw [kept] at set
    show (status &&& ~~~ 0x03) ||| modeAt line _ ||| coincidenceBit =
      (status &&& ~~~ 0x03) ||| modeAt line _
    rw [UInt8.or_assoc, UInt8.or_comm (modeAt line _), ← UInt8.or_assoc, ← set]
  · intro elsewhere
    have kept : status &&& ~~~ coincidenceBit = status := settled.elsewhere elsewhere
    rw [kept] at clear
    show ((status &&& ~~~ 0x03) ||| modeAt line _) &&& ~~~ coincidenceBit =
      (status &&& ~~~ 0x03) ||| modeAt line _
    rw [or_and_mask, ← clear, modeAt_coincidence]

/-- After an update of a screen that is on, the comparison is settled. -/
theorem settled_update {control : UInt8} (on : control &&& 0x80 ≠ 0) (lineStart now : UInt64)
    (speed awaited : UInt8) (registers : LcdRegisters) :
    Settled awaited (update lineStart now speed control awaited registers).registers := by
  rw [update_of_on on]
  exact (settled_compareLine awaited _).tellMode _ _

/-- A screen with a settled comparison that catches up in two stretches ends as one
that catches up at once, and the two stretches raise together what the whole does. -/
theorem update_update (lineStart : UInt64) {middle now : UInt64} (order : middle ≤ now)
    (speed control awaited : UInt8) (registers : LcdRegisters)
    (settled : control &&& 0x80 ≠ 0 → Settled awaited registers) :
    let first := update lineStart middle speed control awaited registers
    let second := update first.lineStart now speed control awaited first.registers
    update lineStart now speed control awaited registers =
      after second first.interrupts first.frame := by
  intro first second
  by_cases on : control &&& 0x80 ≠ 0
  · let factor := speedFactor speed
    let lineTime := dotsPerLine * factor
    let reached :=
      catchUp lineTime awaited (periodsGone lineTime lineStart middle) { lineStart, registers }
    have firstTold : first = tellMode factor middle reached := update_of_on on ..
    have firstStart : first.lineStart = periodEnd lineTime lineStart middle := by
      rw [firstTold]
      exact catchUp_lineStart ..
    let lines := periodsGone lineTime first.lineStart now
    -- The second stretch starts from the first without what that has raised.
    let resumed : LcdProgress := { lineStart := first.lineStart, registers := first.registers }
    have carried : after resumed first.interrupts first.frame = first := by
      simp [after, resumed]
    calc update lineStart now speed control awaited registers
        _ = tellMode factor now (catchUp lineTime awaited lines reached) := by
          rw [update_of_on on, periodsGone_split _ _ order, catchUp_add _ _ _ (settled on),
            ← firstStart]
        _ = tellMode factor now (catchUp lineTime awaited lines first) :=
          tellMode_catchUp (by rw [firstTold, withoutMode_tellMode])
        _ = tellMode factor now
              (after (catchUp lineTime awaited lines resumed) first.interrupts first.frame) := by
          rw [← catchUp_after, carried]
        _ = after second first.interrupts first.frame := by
          unfold second
          rw [update_of_on on]
          rfl
  · have off : control &&& 0x80 = 0 := Decidable.not_not.mp on
    unfold second first
    rw [update_of_off off, update_of_off off, update_of_off off]
    simp [after, UInt8.and_assoc]

end Handheld.Lcd
