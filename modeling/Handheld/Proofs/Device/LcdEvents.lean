import Handheld.Proofs.Hardware.CatchUp

/-!
# What the screen raises

The screen enters one line after another, however many are due when it catches up, and what it
raises on the way depends on these lines alone:

* The end of the picture is noted, and its interrupt raised, when line 144 is among them.
* The interrupt of the line waited for needs the status bit to go from clear to set. The bit may
  be out of date when the screen starts to catch up, so the first comparison depends on it.
  Behind that the bit is settled, and as no line follows itself, it is clear whenever the line
  waited for is entered.

With the line, the status bits and the mode this determines a screen that has caught up
(`CaughtUp`).
-/

set_option autoImplicit false

namespace Handheld.Lcd

/-! ## The lines entered -/

/-- Of the lines entered after `line`, one from the `first` to the `last` is `target`. -/
def Enters (line first last target : Nat) : Prop :=
  ∃ i, first ≤ i ∧ i ≤ last ∧ (line + i) % 154 = target

/-- In an empty stretch no line is entered. -/
theorem not_enters {first last : Nat} (none : last < first) (line target : Nat) :
    ¬ Enters line first last target := by
  rintro ⟨i, above, below, -⟩
  omega

/-- The lines after the next one, counted from there. -/
theorem enters_next (line first last target : Nat) :
    Enters ((line + 1) % 154) first last target ↔ Enters line (first + 1) (last + 1) target := by
  constructor
  · rintro ⟨i, above, below, rfl⟩
    exact ⟨i + 1, by omega, by omega, by omega⟩
  · rintro ⟨i, above, below, rfl⟩
    exact ⟨i - 1, by omega, by omega, by omega⟩

/-- The first line entered, or one of those after it. -/
theorem enters_succ (line n target : Nat) :
    Enters line 1 (n + 1) target ↔ (line + 1) % 154 = target ∨ Enters line 2 (n + 1) target := by
  constructor
  · rintro ⟨i, above, below, here⟩
    by_cases first : i = 1
    · exact .inl (first ▸ here)
    · exact .inr ⟨i, by omega, below, here⟩
  · rintro (here | ⟨i, above, below, here⟩)
    · exact ⟨1, by omega, by omega, here⟩
    · exact ⟨i, by omega, below, here⟩

/-- Where no more than one line is entered. -/
theorem enters_of_le_one {n : Nat} (few : n ≤ 1) (line target : Nat) :
    Enters line 1 n target ↔ n = 1 ∧ (line + 1) % 154 = target := by
  constructor
  · rintro ⟨i, above, below, here⟩
    obtain rfl : i = 1 := by omega
    exact ⟨by omega, here⟩
  · rintro ⟨rfl, here⟩
    exact ⟨1, by decide, by decide, here⟩

/-- Within the frame, passing a line counts modulo 154. -/
theorem toNat_line_nextLine (lineTime : UInt64) (awaited : UInt8) {progress : LcdProgress}
    (inside : progress.registers.line.toNat < 154) :
    (nextLine lineTime awaited progress).registers.line.toNat =
      (progress.registers.line.toNat + 1) % 154 := by
  rw [nextLine_line, toNat_nextLine inside]

/-- Passing a line stays within the frame. -/
theorem toNat_line_nextLine_lt (lineTime : UInt64) (awaited : UInt8) {progress : LcdProgress}
    (inside : progress.registers.line.toNat < 154) :
    (nextLine lineTime awaited progress).registers.line.toNat < 154 := by
  rw [toNat_line_nextLine lineTime awaited inside]
  exact Nat.mod_lt _ (by decide)

/-! ## Which interrupts are raised -/

/-- A comparison raises no interrupt but that of the line waited for. -/
theorem compareLine_interrupts {mask : UInt8} (apart : Interrupt.lcdStat.mask &&& mask = 0)
    (awaited : UInt8) (progress : LcdProgress) :
    (compareLine awaited progress).interrupts &&& mask = progress.interrupts &&& mask := by
  by_cases same : progress.registers.line = awaited
  · rw [compareLine_here _ same]
    dsimp only
    split
    · rw [or_and_mask, apart, UInt8.or_zero]
    · rfl
  · rw [compareLine_elsewhere _ same]

/-- The end of the picture raises no interrupt but its own. -/
theorem frameNoted_interrupts {mask : UInt8} (apart : Interrupt.vblank.mask &&& mask = 0)
    (progress : LcdProgress) :
    (frameNoted progress).interrupts &&& mask = progress.interrupts &&& mask := by
  unfold frameNoted
  split
  · dsimp only
    rw [or_and_mask, apart, UInt8.or_zero]
  · rfl

/-- Passing lines requests no interrupt but those of the display. -/
theorem nextLines_interrupts {mask : UInt8} (line : Interrupt.lcdStat.mask &&& mask = 0)
    (picture : Interrupt.vblank.mask &&& mask = 0) (lineTime : UInt64) (awaited : UInt8) (n : Nat)
    (progress : LcdProgress) :
    (nextLines lineTime awaited n progress).interrupts &&& mask =
      progress.interrupts &&& mask := by
  induction n generalizing progress with
  | zero => rfl
  | succ n ih =>
    rw [nextLines, ih, nextLine_eq, frameNoted_interrupts picture, compareLine_interrupts line]
    rfl

/-- The screen raises its own two interrupts only. -/
theorem update_interrupts {mask : UInt8} (line : Interrupt.lcdStat.mask &&& mask = 0)
    (picture : Interrupt.vblank.mask &&& mask = 0) (lineStart now : UInt64)
    (speed control awaited : UInt8) (registers : LcdRegisters) :
    (update lineStart now speed control awaited registers).interrupts &&& mask = 0 := by
  by_cases on : control &&& 0x80 ≠ 0
  · rw [update_of_on on]
    show (compareLine awaited _).interrupts &&& mask = 0
    rw [compareLine_interrupts line, nextLines_interrupts line picture]
    exact UInt8.zero_and
  · rw [update_of_off (Decidable.not_not.mp on)]
    exact UInt8.zero_and

/-! ## The end of the picture -/

/-- The end of the picture is noted and asked for together. -/
def Noted (progress : LcdProgress) : Prop :=
  progress.interrupts &&& Interrupt.vblank.mask ≠ 0 ↔ progress.frame = true

/-- The comparison does not end the picture. -/
theorem compareLine_frame (awaited : UInt8) (progress : LcdProgress) :
    (compareLine awaited progress).frame = progress.frame := by
  by_cases same : progress.registers.line = awaited
  · rw [compareLine_here _ same]
  · rw [compareLine_elsewhere _ same]

/-- After a comparison the end of the picture is still noted and asked for together. -/
theorem Noted.compareLine {progress : LcdProgress} (noted : Noted progress) (awaited : UInt8) :
    Noted (compareLine awaited progress) := by
  unfold Noted at *
  rw [compareLine_interrupts rfl, compareLine_frame]
  exact noted

/-- The end of the picture is asked for as it is noted. -/
theorem Noted.frameNoted {progress : LcdProgress} (noted : Noted progress) :
    Noted (frameNoted progress) := by
  unfold Lcd.frameNoted
  split
  · refine iff_of_true ?_ rfl
    dsimp only
    rw [or_and_self]
    decide
  · exact noted

/-- Along any number of lines the end of the picture is noted and asked for together. -/
theorem Noted.nextLines {progress : LcdProgress} (noted : Noted progress) (lineTime : UInt64)
    (awaited : UInt8) (n : Nat) : Noted (nextLines lineTime awaited n progress) := by
  induction n generalizing progress with
  | zero => exact noted
  | succ n ih =>
    apply ih
    rw [nextLine_eq]
    have entering : Noted (entered lineTime progress) := noted
    exact (entering.compareLine awaited).frameNoted

/-- A screen that is on asks for the interrupt of a finished frame when it finishes one. -/
theorem noted_update {control : UInt8} (on : control &&& 0x80 ≠ 0) (lineStart now : UInt64)
    (speed awaited : UInt8) (registers : LcdRegisters) :
    Noted (update lineStart now speed control awaited registers) := by
  have start : Noted { lineStart, registers } := iff_of_false (by simp) (by simp)
  rw [update_of_on on]
  exact (start.nextLines _ awaited _).compareLine awaited

/-- Passing a line ends the picture exactly on entering line 144. -/
theorem nextLine_frame (lineTime : UInt64) (awaited : UInt8) {progress : LcdProgress}
    (inside : progress.registers.line.toNat < 154) :
    (nextLine lineTime awaited progress).frame = true ↔
      progress.frame = true ∨ (progress.registers.line.toNat + 1) % 154 = 144 := by
  have entering : (entered lineTime progress).registers.line = visibleLines ↔
      (progress.registers.line.toNat + 1) % 154 = 144 := by
    rw [← toNat_nextLine inside, ← UInt8.toNat_inj]
    rfl
  rw [nextLine_eq, ← entering]
  unfold frameNoted
  rw [compareLine_line]
  by_cases last : (entered lineTime progress).registers.line = visibleLines
  · rw [if_pos last]
    exact iff_of_true rfl (.inr last)
  · rw [if_neg last, compareLine_frame]
    exact (or_iff_left last).symm

/-- Passing lines ends the picture exactly if line 144 is among those entered. -/
theorem nextLines_frame (lineTime : UInt64) (awaited : UInt8) (n : Nat) {progress : LcdProgress}
    (inside : progress.registers.line.toNat < 154) :
    (nextLines lineTime awaited n progress).frame = true ↔
      progress.frame = true ∨ Enters progress.registers.line.toNat 1 n 144 := by
  induction n generalizing progress with
  | zero => exact (or_iff_left (not_enters (by decide) _ _)).symm
  | succ n ih =>
    rw [nextLines, ih (toNat_line_nextLine_lt lineTime awaited inside),
      nextLine_frame lineTime awaited inside, toNat_line_nextLine lineTime awaited inside,
      enters_next, enters_succ, or_assoc]

/-- A screen that is on finishes a frame if line 144 is among the lines it enters. -/
theorem frame_update {control : UInt8} (on : control &&& 0x80 ≠ 0) (lineStart now : UInt64)
    (speed awaited : UInt8) {registers : LcdRegisters} (inside : registers.line.toNat < 154) :
    (update lineStart now speed control awaited registers).frame = true ↔
      Enters registers.line.toNat 1
        (periodsGone (dotsPerLine * speedFactor speed) lineStart now) 144 := by
  rw [update_of_on on]
  show (compareLine awaited _).frame = true ↔ _
  rw [compareLine_frame]
  let start : LcdProgress := { lineStart, registers }
  have frames := nextLines_frame (dotsPerLine * speedFactor speed) awaited
    (periodsGone (dotsPerLine * speedFactor speed) lineStart now)
    (show start.registers.line.toNat < 154 from inside)
  exact frames.trans (or_iff_right Bool.false_ne_true)

/-! ## The line waited for -/

/-- The interrupt of the line waited for is raised. -/
def RaisesLine (progress : LcdProgress) : Prop :=
  progress.interrupts &&& Interrupt.lcdStat.mask ≠ 0

/-- The program asks for the interrupt of the line waited for. -/
def AsksForLine (registers : LcdRegisters) : Prop :=
  registers.status &&& coincidenceInterruptBit ≠ 0

/-- A comparison requests the line interrupt where the line has just become the awaited one and
the interrupt is asked for. -/
theorem compareLine_raises (awaited : UInt8) (progress : LcdProgress) :
    RaisesLine (compareLine awaited progress) ↔
      RaisesLine progress ∨
        (AsksForLine progress.registers ∧ progress.registers.line = awaited ∧
          progress.registers.status &&& coincidenceBit = 0) := by
  unfold RaisesLine AsksForLine
  by_cases same : progress.registers.line = awaited
  · rw [compareLine_here _ same]
    dsimp only
    by_cases clear : progress.registers.status &&& coincidenceBit = 0
    · by_cases asked : progress.registers.status &&& coincidenceInterruptBit = 0
      · simp [clear, asked]
      · have raised : (progress.interrupts ||| Interrupt.lcdStat.mask) &&&
            Interrupt.lcdStat.mask ≠ 0 := by
          rw [or_and_self]
          decide
        simp [clear, asked, same, raised]
    · simp [clear]
  · rw [compareLine_elsewhere _ same]
    simp [same]

/-- Passing a line requests the line interrupt on entering the awaited one, if the interrupt is
asked for. -/
theorem nextLine_raises (lineTime : UInt64) {awaited : UInt8} {progress : LcdProgress}
    (inside : progress.registers.line.toNat < 154) :
    RaisesLine (nextLine lineTime awaited progress) ↔
      RaisesLine progress ∨
        (AsksForLine progress.registers ∧
          (progress.registers.line.toNat + 1) % 154 = awaited.toNat ∧
          progress.registers.status &&& coincidenceBit = 0) := by
  have entering : (progress.registers.line + 1) % linesPerFrame = awaited ↔
      (progress.registers.line.toNat + 1) % 154 = awaited.toNat := by
    rw [← toNat_nextLine inside, UInt8.toNat_inj]
  unfold RaisesLine
  rw [nextLine_eq, frameNoted_interrupts rfl, ← entering]
  exact compareLine_raises awaited (entered lineTime progress)

/-- Passing a line does not change whether the line interrupt is asked for. -/
theorem asksForLine_nextLine (lineTime : UInt64) (awaited : UInt8) (progress : LcdProgress) :
    AsksForLine (nextLine lineTime awaited progress).registers ↔
      AsksForLine progress.registers := by
  have kept : (nextLine lineTime awaited progress).registers.status &&& coincidenceInterruptBit =
      progress.registers.status &&& coincidenceInterruptBit :=
    and_eq_of_and_eq (nextLine_status lineTime awaited progress) rfl
  exact not_congr (Eq.congr_left kept)

/-- Where the line is not the one waited for, the settled status bit is clear. -/
theorem Settled.clear {awaited : UInt8} {registers : LcdRegisters}
    (settled : Settled awaited registers) (other : registers.line ≠ awaited) :
    registers.status &&& coincidenceBit = 0 := by
  rw [← settled.elsewhere other, UInt8.and_assoc]
  exact UInt8.and_zero

/-- From a settled comparison on, the interrupt is raised whenever the line waited for is
entered. -/
theorem nextLines_raises (lineTime : UInt64) {awaited : UInt8} (n : Nat) {progress : LcdProgress}
    (inside : progress.registers.line.toNat < 154) (settled : Settled awaited progress.registers) :
    RaisesLine (nextLines lineTime awaited n progress) ↔
      RaisesLine progress ∨
        (AsksForLine progress.registers ∧
          Enters progress.registers.line.toNat 1 n awaited.toNat) := by
  induction n generalizing progress with
  | zero => exact (or_iff_left fun asked => not_enters (by decide) _ _ asked.2).symm
  | succ n ih =>
    -- The next line is not this one, so if it is the one waited for, the bit is clear.
    have clear (here : (progress.registers.line.toNat + 1) % 154 = awaited.toNat) :
        progress.registers.status &&& coincidenceBit = 0 := by
      apply settled.clear
      rw [ne_eq, ← UInt8.toNat_inj]
      omega
    have next : Settled awaited (nextLine lineTime awaited progress).registers :=
      settled_nextLines lineTime 1 settled
    rw [nextLines, ih (toNat_line_nextLine_lt lineTime awaited inside) next,
      nextLine_raises lineTime inside, asksForLine_nextLine,
      toNat_line_nextLine lineTime awaited inside, enters_next, enters_succ]
    tauto

/-- A screen that catches up raises the interrupt for any line but the first that it enters, and
for the first, or for the one it stays in, if the status bit was clear. -/
theorem catchUp_raises (lineTime : UInt64) (awaited : UInt8) (n : Nat) {progress : LcdProgress}
    (inside : progress.registers.line.toNat < 154) :
    RaisesLine (catchUp lineTime awaited n progress) ↔
      RaisesLine progress ∨
        (AsksForLine progress.registers ∧
          (Enters progress.registers.line.toNat 2 n awaited.toNat ∨
            ((progress.registers.line.toNat + min 1 n) % 154 = awaited.toNat ∧
              progress.registers.status &&& coincidenceBit = 0))) := by
  cases n with
  | zero =>
    have stays : (progress.registers.line.toNat + min 1 0) % 154 = awaited.toNat ↔
        progress.registers.line = awaited := by
      rw [Nat.min_zero, Nat.add_zero, Nat.mod_eq_of_lt inside, UInt8.toNat_inj]
    rw [catchUp, nextLines, compareLine_raises, stays,
      or_iff_right (not_enters (by decide) progress.registers.line.toNat awaited.toNat)]
  | succ n =>
    have begun : Settled awaited (nextLine lineTime awaited progress).registers := by
      rw [nextLine_eq, frameNoted_registers]
      exact settled_compareLine awaited _
    have reached := settled_nextLines lineTime n begun
    have first : min 1 (n + 1) = 1 := by omega
    rw [catchUp, nextLines, compareLine_of_settled reached,
      nextLines_raises lineTime n (toNat_line_nextLine_lt lineTime awaited inside) begun,
      nextLine_raises lineTime inside, asksForLine_nextLine,
      toNat_line_nextLine lineTime awaited inside, enters_next, first]
    tauto

/-- What a screen that is on raises for the line waited for when it catches up. -/
theorem raises_update {control : UInt8} (on : control &&& 0x80 ≠ 0) (lineStart now : UInt64)
    (speed awaited : UInt8) {registers : LcdRegisters} (inside : registers.line.toNat < 154) :
    let lines := periodsGone (dotsPerLine * speedFactor speed) lineStart now
    RaisesLine (update lineStart now speed control awaited registers) ↔
      AsksForLine registers ∧
        (Enters registers.line.toNat 2 lines awaited.toNat ∨
          ((registers.line.toNat + min 1 lines) % 154 = awaited.toNat ∧
            registers.status &&& coincidenceBit = 0)) := by
  intro lines
  let start : LcdProgress := { lineStart, registers }
  have before : ¬ RaisesLine start := by simp [RaisesLine, start]
  have raises := catchUp_raises (dotsPerLine * speedFactor speed) awaited lines
    (show start.registers.line.toNat < 154 from inside)
  rw [update_of_on on]
  exact raises.trans (or_iff_right before)

/-! ## A screen that has caught up -/

/-- The speed factor is the speed, and one where that is zero. -/
theorem toNat_speedFactor (speed : UInt8) : (speedFactor speed).toNat = max 1 speed.toNat := by
  unfold speedFactor
  split
  next none =>
    rw [none]
    rfl
  next some =>
    have positive : speed.toNat ≠ 0 := fun zero => some (UInt8.toNat_inj.mp zero)
    rw [UInt8.toNat_toUInt64]
    omega

/-- A line takes 456 dots, each as many cycles as the speed factor says. -/
theorem toNat_lineTime_of_speed (speed : UInt8) :
    (dotsPerLine * speedFactor speed).toNat = 456 * max 1 speed.toNat := by
  have := speed.toNat_lt
  rw [UInt64.toNat_mul, toNat_speedFactor, show dotsPerLine.toNat = 456 from rfl]
  exact Nat.mod_eq_of_lt (by omega)

/-- The mode of a dot of a line, both counted from 0. -/
def modeOf (line dot : Nat) : UInt8 :=
  if 144 ≤ line then 1
  else if dot < 80 then 2
  else if dot < 252 then 3
  else 0

/-- The mode by line and dot, as a function of their values. -/
theorem modeAt_eq (line : UInt8) (dot : UInt64) :
    modeAt line dot = modeOf line.toNat dot.toNat := by
  unfold modeAt modeOf
  simp only [UInt8.le_iff_toNat_le, UInt64.lt_iff_toNat_lt]
  rfl

/-- A mode is told by two bits. -/
theorem modeAt_low (line : UInt8) (dot : UInt64) : modeAt line dot &&& 0x03 = modeAt line dot := by
  unfold modeAt
  split
  · rfl
  · split
    · rfl
    · split <;> rfl

/-- A screen that is on has caught up with a time so many cycles after its line began, at so many
cycles a dot. -/
structure CaughtUp (cycles factor : Nat) (lineStart : UInt64) (awaited : UInt8)
    (registers : LcdRegisters) (progress : LcdProgress) : Prop where
  line : progress.registers.line.toNat = (registers.line.toNat + cycles / (456 * factor)) % 154
  lineStart : progress.lineStart.toNat =
    lineStart.toNat + cycles / (456 * factor) * (456 * factor)
  coincidence : progress.registers.status &&& coincidenceBit ≠ 0 ↔
    progress.registers.line = awaited
  upper : progress.registers.status &&& 0xF8 = registers.status &&& 0xF8
  mode : progress.registers.status &&& 0x03 =
    modeOf progress.registers.line.toNat (cycles % (456 * factor) / factor)
  vblank : progress.interrupts &&& Interrupt.vblank.mask ≠ 0 ↔
    Enters registers.line.toNat 1 (cycles / (456 * factor)) 144
  frame : progress.frame = true ↔ Enters registers.line.toNat 1 (cycles / (456 * factor)) 144
  lcdStat : progress.interrupts &&& Interrupt.lcdStat.mask ≠ 0 ↔
    registers.status &&& coincidenceInterruptBit ≠ 0 ∧
      (Enters registers.line.toNat 2 (cycles / (456 * factor)) awaited.toNat ∨
        ((registers.line.toNat + min 1 (cycles / (456 * factor))) % 154 = awaited.toNat ∧
          registers.status &&& coincidenceBit = 0))
  others : progress.interrupts &&& ~~~ (Interrupt.vblank.mask ||| Interrupt.lcdStat.mask) = 0

/-- The status bit tells exactly whether the line is the one waited for. -/
theorem Settled.coincidence {awaited : UInt8} {registers : LcdRegisters}
    (settled : Settled awaited registers) :
    registers.status &&& coincidenceBit ≠ 0 ↔ registers.line = awaited := by
  constructor
  · intro set
    by_contra other
    exact set (settled.clear other)
  · intro here
    rw [← settled.here here, or_and_self]
    decide

/-- The status shows the mode of the dot that the line has reached. -/
theorem tellMode_mode (factor now : UInt64) (progress : LcdProgress) :
    (tellMode factor now progress).registers.status &&& 0x03 =
      modeAt progress.registers.line ((now - progress.lineStart) / factor) := by
  have cleared : progress.registers.status &&& ~~~ 0x03 &&& 0x03 = 0 :=
    (UInt8.and_assoc ..).trans UInt8.and_zero
  unfold tellMode
  rw [or_and_mask, cleared, modeAt_low, UInt8.zero_or]

/-- A screen that is on is at any time where the cycles since its line began put it: it has
entered a line for each line time in them, the last of these began behind so many line times, and
the mode is that of the dot which the remaining cycles lead to. It finishes a frame, and raises
the interrupt for that, if line 144 is among the lines entered. If the program asks for the
interrupt of the line waited for, this is raised when that is one of the lines entered but the
first, and when it is the first, or the line in which the screen stays, and was not shown as
reached before. Nothing else is raised. -/
theorem catching_up_exact {control : UInt8} (on : control &&& 0x80 ≠ 0) {lineStart now : UInt64}
    (order : lineStart ≤ now) (speed awaited : UInt8) {registers : LcdRegisters}
    (inside : registers.line.toNat < 154) :
    CaughtUp (now.toNat - lineStart.toNat) (max 1 speed.toNat) lineStart awaited registers
      (update lineStart now speed control awaited registers) := by
  let lineTime := dotsPerLine * speedFactor speed
  have time : lineTime.toNat = 456 * max 1 speed.toNat := toNat_lineTime_of_speed speed
  have gone : periodsGone lineTime lineStart now =
      (now.toNat - lineStart.toNat) / (456 * max 1 speed.toNat) := by
    rw [periodsGone_eq, time]
  obtain ⟨begins, line⟩ := update_line on lineStart now speed awaited inside
  have begun : (update lineStart now speed control awaited registers).lineStart.toNat =
      lineStart.toNat + (now.toNat - lineStart.toNat) / (456 * max 1 speed.toNat) *
        (456 * max 1 speed.toNat) := by
    rw [begins, periodEnd_toNat, time, gone]
  have frame := frame_update on lineStart now speed awaited inside
  have raises := raises_update on lineStart now speed awaited inside
  rw [gone] at line frame raises
  constructor
  · exact line
  · exact begun
  · exact (settled_update on lineStart now speed awaited registers).coincidence
  · exact update_upper ..
  · have past := update_lineStart_le order speed control awaited registers
    have ordered := UInt64.le_iff_toNat_le.mp order
    have remaining :
        (now - (update lineStart now speed control awaited registers).lineStart).toNat =
          (now.toNat - lineStart.toNat) % (456 * max 1 speed.toNat) := by
      have parts := Nat.div_add_mod' (now.toNat - lineStart.toNat) (456 * max 1 speed.toNat)
      rw [UInt64.toNat_sub_of_le _ _ past, begun]
      omega
    rw [← remaining, ← toNat_speedFactor, ← UInt64.toNat_div, ← modeAt_eq, update_of_on on]
    exact tellMode_mode ..
  · exact (noted_update on lineStart now speed awaited registers).trans frame
  · exact frame
  · exact raises
  · exact update_interrupts rfl rfl ..

/-- At double speed the screen goes on from line 143 over the end of the frame, into the line that
is waited for. -/
theorem catching_up_exact_over_the_end :
    (0x91 : UInt8) &&& 0x80 ≠ 0 ∧ (1000 : UInt64) ≤ 11332 ∧ (143 : UInt8).toNat < 154 ∧
      CaughtUp 10332 2 1000 0 ⟨143, 0x44⟩ (update 1000 11332 2 0x91 0 ⟨143, 0x44⟩) := by
  have on : (0x91 : UInt8) &&& 0x80 ≠ 0 := by decide
  have order : (1000 : UInt64) ≤ 11332 := by decide
  have inside : (⟨143, 0x44⟩ : LcdRegisters).line.toNat < 154 := by decide
  exact ⟨on, order, inside, catching_up_exact on order 2 0 inside⟩

example :
    update 1000 11332 2 0x91 0 ⟨143, 0x44⟩ =
      { lineStart := 11032, registers := ⟨0, 0x47⟩
        interrupts := Interrupt.vblank.mask ||| Interrupt.lcdStat.mask, frame := true } := by
  decide

end Handheld.Lcd
