import Mathlib.Algebra.Order.BigOperators.Group.Finset
import Handheld.Proofs.Counter
import Handheld.Proofs.Hardware.CatchUp
import Handheld.Proofs.RomProgram

/-!
# How fast the lines pass

A line of the screen takes 456 dots. A cycle of the processor is one dot at single speed
and half a dot at double speed, so in half dots a line takes 912. While the screen is on,
the lines that it has entered are counted against the half dots that have gone by.

The screen remembers when its line began as a count of cycles, and a change of speed does
not touch this count. The cycles since then are measured at the new speed from then on: at
double speed they are worth half of what they were worth before, at single speed twice as
much. So each change displaces the beam by as many half dots as the processor had gone
into the line in cycles, back when it speeds up and ahead when it slows down. The law that
holds (`lines_of_lit_run`) counts these displacements in. With a change in the middle of a
line the screen falls behind or gets ahead of the dots, and slowing down may skip a line.
-/

set_option autoImplicit false

namespace Handheld

/-- Neither the line counter nor the start of the line is within reach of the processor. -/
theorem System.Proceeds.screen {s s' : System Hardware} {n : Nat} (h : Proceeds s n s') :
    s'.bus.lineStart = s.bus.lineStart ∧ s'.bus.stored .ly = s.bus.stored .ly := by
  induction h with
  | think _ bus | spend _ _ bus | tick _ _ bus =>
    rw [bus]
    exact ⟨rfl, rfl⟩
  | @store s t place value _ bus =>
    have written := s.bus.written_store place value
    rw [bus]
    refine ⟨written.lineStart, ?_⟩
    obtain same | ⟨_, kept⟩ := written.stored .ly
    · exact same
    · exact kept
  | @takeBack s t source _ bus =>
    rw [bus]
    exact ⟨rfl, s.bus.stored_setStored .irq .ly _⟩
  | @switch s t speed _ _ bus =>
    rw [bus]
    exact ⟨rfl, s.bus.stored_setStored .key1 .ly _⟩
  | trans _ _ first second =>
    exact ⟨second.1.trans first.1, second.2.trans first.2⟩

namespace Machine

open Finset (range)

/-! ## What a step adds -/

/-- The cycles that the next step reports. -/
def spent (m : Machine) : Nat :=
  match m.step.2 with
  | .ok cycles => cycles.toNat
  | .error _ => 0

/-- The next step succeeds, and the screen is on when its devices catch up. -/
def Lit (m : Machine) : Prop :=
  m.step.2.isOk = true ∧ m.step.1.bus.stored .lcdc &&& 0x80 ≠ 0

/-- How often the line counter moves on in the next step. -/
def linesEntered (m : Machine) : Nat :=
  ((m.step.1.bus.stored .ly).toNat + 154 - (m.bus.stored .ly).toNat) % 154

/-- The half dots that go by in the next step, by the speed at which it ends. -/
def halfDots (m : Machine) : Nat := if m.step.1.cpu.speed = 2 then m.spent else 2 * m.spent

/-- The cycles since the current line began. -/
def intoLine (m : Machine) : Nat := (m.cpu.cycles - m.bus.lineStart).toNat

/-- The half dots by which the next step displaces the beam. -/
def displacement (m : Machine) : Int :=
  if m.step.1.cpu.speed = m.cpu.speed then 0
  else if m.step.1.cpu.speed = 2 then -m.intoLine
  else m.intoLine

/-! ## The beam -/

/-- Where the beam is, in half dots from the start of its line. -/
def beam (m : Machine) : Nat := if m.cpu.speed = 2 then m.intoLine else 2 * m.intoLine

/-- The screen has entered all lines that are due. -/
structure OnBeam (m : Machine) : Prop where
  speed : m.cpu.speed = 1 ∨ m.cpu.speed = 2
  line : (m.bus.stored .ly).toNat < 154
  begun : m.bus.lineStart ≤ m.cpu.cycles
  within : m.beam < 912

/-- A line begins just now. -/
structure AtLineStart (m : Machine) : Prop where
  speed : m.cpu.speed = 1 ∨ m.cpu.speed = 2
  line : (m.bus.stored .ly).toNat < 154
  begins : m.bus.lineStart = m.cpu.cycles

/-- At the start of a line no cycle of it is gone. -/
theorem AtLineStart.intoLine {m : Machine} (start : m.AtLineStart) : m.intoLine = 0 := by
  unfold Machine.intoLine
  rw [start.begins, UInt64.sub_self]
  rfl

/-- At the start of a line the beam is at its beginning. -/
theorem AtLineStart.beam {m : Machine} (start : m.AtLineStart) : m.beam = 0 := by
  unfold Machine.beam
  rw [start.intoLine]
  split <;> rfl

/-- At the start of a line the screen has entered all that are due. -/
theorem AtLineStart.onBeam {m : Machine} (start : m.AtLineStart) : m.OnBeam where
  speed := start.speed
  line := start.line
  begun := UInt64.le_of_eq start.begins
  within := by
    rw [start.beam]
    decide

/-- A machine starts at line 0. -/
theorem reset_line (m : Machine) : m.reset.bus.stored .ly = 0 := by
  obtain ⟨-, bus⟩ | ⟨-, bus⟩ := m.reset_outcome
  · rw [bus, Hardware.stored_powerCycle]
  · rw [bus, Hardware.stored_postBoot]

/-- A machine starts at the start of a line. -/
theorem atLineStart_reset (m : Machine) : m.reset.AtLineStart := by
  have line : (m.reset.bus.stored .ly).toNat < 154 := by
    rw [reset_line]
    decide
  obtain ⟨cpu, bus⟩ | ⟨cpu, bus⟩ := m.reset_outcome
  · exact ⟨.inl (by rw [cpu]), line, by rw [cpu, bus]; rfl⟩
  · exact ⟨.inl (by rw [cpu]; rfl), line, by rw [cpu, bus]; rfl⟩

/-! ## One step -/

/-- A step that succeeds has a first half, which takes the cycles that the step reports. -/
theorem acted_of_lit {m : Machine} (lit : m.Lit) :
    ∃ s, m.acted = some s ∧ m.spent ≤ 56 ∧ System.Proceeds m.toSystem m.spent s := by
  cases acts : m.acted with
  | none =>
    obtain ⟨⟨error, fails⟩, -, -⟩ := step_of_not_acted acts
    have succeeds := lit.1
    rw [fails] at succeeds
    contradiction
  | some s =>
    obtain ⟨n, few, proceeds⟩ := proceeds_of_acted acts
    have reported : m.spent = n := by
      unfold spent
      rw [step_of_acted acts, finishStep_spent]
      exact toNat_reported (by omega) proceeds.cycles_eq
    rw [reported]
    exact ⟨s, rfl, few, proceeds⟩

/-- The devices do not switch the screen on. -/
theorem Lit.on {m : Machine} {s : System Hardware} (lit : m.Lit) (acts : m.acted = some s) :
    s.bus.stored .lcdc &&& 0x80 ≠ 0 := by
  obtain ⟨-, heard, -⟩ := finishStep_parts s m.cpu.cycles m.quit
  have after := lit.2
  rw [step_of_acted acts, heard] at after
  rwa [← (s.bus.caughtUp_update s.cpu.cycles s.cpu.speed).stored .lcdc rfl]

/-- The cycles of a line at a speed. -/
def lineTime (speed : UInt8) : Nat := if speed = 2 then 912 else 456

/-- A line lasts 456 cycles at single speed and twice as many at double speed. -/
theorem toNat_lineTime {speed : UInt8} (two : speed = 1 ∨ speed = 2) :
    (Lcd.dotsPerLine * Lcd.speedFactor speed).toNat = lineTime speed := by
  obtain rfl | rfl := two <;> rfl

/-- The screen at the end of a step: its line has moved on by the lines that have gone by
since it began, counted at the speed at which the step ends. -/
theorem screen_of_lit {m : Machine} {s : System Hardware} (acts : m.acted = some s) (lit : m.Lit)
    (inside : (s.bus.stored .ly).toNat < 154) :
    let period := Lcd.dotsPerLine * Lcd.speedFactor s.cpu.speed
    let next := m.step.1
    next.cpu = s.cpu ∧
      next.bus.lineStart = periodEnd period s.bus.lineStart s.cpu.cycles ∧
      (next.bus.stored .ly).toNat =
        ((s.bus.stored .ly).toNat + periodsGone period s.bus.lineStart s.cpu.cycles) % 154 := by
  intro period next
  obtain ⟨heardStart, heard, -⟩ := finishStep_parts s m.cpu.cycles m.quit
  obtain ⟨start, line⟩ := s.bus.update_line s.cpu.cycles s.cpu.speed (lit.on acts) inside
  unfold next
  rw [step_of_acted acts, finishStep_cpu, heardStart, heard]
  exact ⟨rfl, start, line⟩

section

variable {m : Machine} {s : System Hardware} (onBeam : m.OnBeam) (acts : m.acted = some s)
  (lit : m.Lit) (room : m.cpu.cycles.toNat + m.spent < 2 ^ 64)

include onBeam acts lit room

/-- The cycles into the line and those of the step are the ones since the line began. -/
theorem intoLine_add_spent :
    m.intoLine + m.spent = s.cpu.cycles.toNat - m.bus.lineStart.toNat := by
  obtain ⟨s', acts', -, proceeds⟩ := acted_of_lit lit
  obtain rfl : s = s' := Option.some.inj (acts.symm.trans acts')
  have shown := proceeds.toNat_cycles room
  have begun := UInt64.le_iff_toNat_le.mp onBeam.begun
  unfold intoLine
  rw [UInt64.toNat_sub_of_le _ _ onBeam.begun]
  omega

/-- The lines that are due at the end of a step. The screen takes the cycles since its line began
at the speed that holds then, whatever they were spent at. -/
theorem periodsGone_of_lit :
    periodsGone (Lcd.dotsPerLine * Lcd.speedFactor s.cpu.speed) s.bus.lineStart s.cpu.cycles =
      (m.intoLine + m.spent) / lineTime s.cpu.speed := by
  have past := intoLine_add_spent onBeam acts lit room
  obtain ⟨s', acts', -, proceeds⟩ := acted_of_lit lit
  obtain rfl : s = s' := Option.some.inj (acts.symm.trans acts')
  rw [periodsGone_eq, toNat_lineTime (proceeds.speed_cases onBeam.speed), proceeds.screen.1, past]

end

/-- The cycles since the line began are divided into lines of the length that holds at the
end of the step. -/
theorem step_of_lit {m : Machine} (onBeam : m.OnBeam) (lit : m.Lit)
    (room : m.cpu.cycles.toNat + m.spent < 2 ^ 64) :
    let next := m.step.1
    let time := lineTime next.cpu.speed
    next.cpu.cycles.toNat = m.cpu.cycles.toNat + m.spent ∧
      (next.cpu.speed = 1 ∨ next.cpu.speed = 2) ∧ next.bus.lineStart ≤ next.cpu.cycles ∧
      next.intoLine = (m.intoLine + m.spent) % time ∧
      (next.bus.stored .ly).toNat =
        ((m.bus.stored .ly).toNat + (m.intoLine + m.spent) / time) % 154 := by
  intro next time
  obtain ⟨s, acts, few, proceeds⟩ := acted_of_lit lit
  obtain ⟨sameStart, sameLine⟩ := proceeds.screen
  have shown := proceeds.toNat_cycles room
  have forwards := proceeds.le_of_room room
  have inside : (s.bus.stored .ly).toNat < 154 := by
    rw [sameLine]
    exact onBeam.line
  obtain ⟨cpu, start, line⟩ := screen_of_lit acts lit inside
  rw [← cpu] at shown forwards start line
  have two : next.cpu.speed = 1 ∨ next.cpu.speed = 2 := by
    unfold next
    rw [cpu]
    exact proceeds.speed_cases onBeam.speed
  rw [sameStart] at start line
  -- The line has begun when it did before the step, until the screen catches up. So the cycles of
  -- the step come on top of those that had gone by in the line.
  have past : m.intoLine + m.spent = next.cpu.cycles.toNat - m.bus.lineStart.toNat := by
    unfold next
    rw [cpu]
    exact intoLine_add_spent onBeam acts lit room
  have gone : periodsGone (Lcd.dotsPerLine * Lcd.speedFactor next.cpu.speed) m.bus.lineStart
      next.cpu.cycles = (m.intoLine + m.spent) / time := by
    unfold time next
    rw [cpu, ← sameStart]
    exact periodsGone_of_lit onBeam acts lit room
  have nextBegun : next.bus.lineStart ≤ next.cpu.cycles := by
    unfold next
    rw [start]
    exact periodEnd_le _ (UInt64.le_trans onBeam.begun forwards)
  refine ⟨shown, two, nextBegun, ?_, ?_⟩
  · have rest := Nat.div_add_mod' (m.intoLine + m.spent) time
    have reached : next.bus.lineStart.toNat =
        m.bus.lineStart.toNat + (m.intoLine + m.spent) / time * time := by
      unfold next
      rw [start, periodEnd_toNat, gone, toNat_lineTime two]
    show (next.cpu.cycles - next.bus.lineStart).toNat = _
    rw [UInt64.toNat_sub_of_le _ _ nextBegun, reached]
    omega
  · unfold next
    rw [line, sameLine, gone]

/-- The lines that are due in a step are those by which its line counter moves on, at most
two, and two only when the processor slows down. -/
theorem linesEntered_of_lit {m : Machine} (onBeam : m.OnBeam) (lit : m.Lit)
    (room : m.cpu.cycles.toNat + m.spent < 2 ^ 64) :
    m.linesEntered = (m.intoLine + m.spent) / lineTime m.step.1.cpu.speed ∧
      m.linesEntered ≤ 2 ∧
      (m.linesEntered = 2 → m.cpu.speed = 2 ∧ m.step.1.cpu.speed = 1) := by
  obtain ⟨-, two, -, -, line⟩ := step_of_lit onBeam lit room
  obtain ⟨s, -, few, -⟩ := acted_of_lit lit
  have inside := onBeam.line
  have within := onBeam.within
  -- A step is far shorter than a line, so two lines can be due only if the cycles before it
  -- have come to count double.
  have due : (m.intoLine + m.spent) / lineTime m.step.1.cpu.speed ≤ 2 ∧
      ((m.intoLine + m.spent) / lineTime m.step.1.cpu.speed = 2 →
        m.cpu.speed = 2 ∧ m.step.1.cpu.speed = 1) := by
    unfold beam at within
    unfold lineTime
    obtain old | old := onBeam.speed
    · rw [old] at within ⊢
      obtain new | new := two
      all_goals
        rw [new]
        simp at within ⊢
        omega
    · rw [old] at within ⊢
      obtain new | new := two
      all_goals
        rw [new]
        simp at within ⊢
        omega
  have entered : m.linesEntered = (m.intoLine + m.spent) / lineTime m.step.1.cpu.speed := by
    unfold linesEntered
    generalize (m.intoLine + m.spent) / lineTime m.step.1.cpu.speed = lines at line due
    omega
  rw [entered]
  exact ⟨rfl, due⟩

/-- What one step does to the beam: it moves on by the half dots that go by, and a change of
speed displaces it. -/
theorem beam_of_lit {m : Machine} (onBeam : m.OnBeam) (lit : m.Lit)
    (room : m.cpu.cycles.toNat + m.spent < 2 ^ 64) :
    m.step.1.OnBeam ∧
      912 * m.linesEntered + m.step.1.beam = m.beam + m.halfDots + m.displacement := by
  obtain ⟨-, two, begun, into, line⟩ := step_of_lit onBeam lit room
  obtain ⟨entered, -, -⟩ := linesEntered_of_lit onBeam lit room
  have differ : (1 : UInt8) ≠ 2 := by decide
  have inside : (m.step.1.bus.stored .ly).toNat < 154 := by
    rw [line]
    exact Nat.mod_lt _ (by decide)
  have moved : m.step.1.beam < 912 ∧
      912 * m.linesEntered + m.step.1.beam = m.beam + m.halfDots + m.displacement := by
    unfold beam halfDots displacement
    rw [into, entered]
    unfold lineTime
    -- By the speeds before and after the step: where they differ, the displacement makes up for
    -- the other measure.
    obtain old | old := onBeam.speed <;> obtain new | new := two
    all_goals
      simp only [old, new, differ, differ.symm, if_true, if_false]
      omega
  exact ⟨⟨two, inside, begun, moved.1⟩, moved.2⟩

/-- A step at a steady speed enters at most one line. -/
theorem linesEntered_le_one {m : Machine} (onBeam : m.OnBeam) (lit : m.Lit)
    (room : m.cpu.cycles.toNat + m.spent < 2 ^ 64) (still : m.displacement = 0) :
    m.linesEntered ≤ 1 := by
  obtain ⟨-, moved⟩ := beam_of_lit onBeam lit room
  obtain ⟨s, -, few, -⟩ := acted_of_lit lit
  have within := onBeam.within
  have short : m.halfDots ≤ 112 := by
    unfold halfDots
    split <;> omega
  omega

/-! ## Many steps -/

/-- The state of the count after a number of steps. -/
theorem count_of_lit {m : Machine} (start : m.AtLineStart) (n : Nat)
    (lit : ∀ k < n, (m.after k).Lit)
    (room : m.cpu.cycles.toNat + ∑ k ∈ range n, (m.after k).spent < 2 ^ 64) :
    (m.after n).OnBeam ∧
      (m.after n).cpu.cycles.toNat = m.cpu.cycles.toNat + ∑ k ∈ range n, (m.after k).spent ∧
      ((m.after n).bus.stored .ly).toNat =
        ((m.bus.stored .ly).toNat + ∑ k ∈ range n, (m.after k).linesEntered) % 154 ∧
      912 * (∑ k ∈ range n, (m.after k).linesEntered : Nat) + (m.after n).beam =
        (∑ k ∈ range n, (m.after k).halfDots : Nat) +
          ∑ k ∈ range n, (m.after k).displacement := by
  -- What carries the induction is where the beam is: the lines entered are whole lines, and
  -- the rest of the half dots is the beam's.
  induction n with
  | zero =>
    refine ⟨start.onBeam, rfl, (Nat.mod_eq_of_lt start.line).symm, ?_⟩
    show (912 * 0 + (m.beam : Int)) = 0 + 0
    rw [start.beam]
    rfl
  | succ n ih =>
    rw [Finset.sum_range_succ] at room
    obtain ⟨onBeam, cycles, line, count⟩ := ih (fun k before => lit k (by omega)) (by omega)
    have next := lit n (Nat.lt_succ_self n)
    have fits : (m.after n).cpu.cycles.toNat + (m.after n).spent < 2 ^ 64 := by omega
    obtain ⟨later, -, -, -, moved⟩ := step_of_lit onBeam next fits
    obtain ⟨entered, -, -⟩ := linesEntered_of_lit onBeam next fits
    obtain ⟨still, added⟩ := beam_of_lit onBeam next fits
    rw [← entered] at moved
    simp only [Finset.sum_range_succ]
    refine ⟨still, ?_, ?_, ?_⟩
    · show (m.after n).step.1.cpu.cycles.toNat = _
      omega
    · show ((m.after n).step.1.bus.stored .ly).toNat = _
      omega
    · show 912 * (_ : Int) + (m.after n).step.1.beam = _
      omega

/-- While the screen is on, the beam has entered all lines that are due before every step. -/
theorem onBeam_of_lit {m : Machine} (start : m.AtLineStart) {n k : Nat} (before : k < n)
    (lit : ∀ k < n, (m.after k).Lit)
    (room : m.cpu.cycles.toNat + ∑ k ∈ range n, (m.after k).spent < 2 ^ 64) :
    (m.after k).OnBeam ∧ (m.after k).cpu.cycles.toNat + (m.after k).spent < 2 ^ 64 := by
  have part : ∑ j ∈ range (k + 1), (m.after j).spent ≤ ∑ j ∈ range n, (m.after j).spent :=
    Finset.sum_le_sum_of_subset (Finset.range_mono before)
  rw [Finset.sum_range_succ] at part
  obtain ⟨onBeam, cycles, -, -⟩ :=
    count_of_lit start k (fun j earlier => lit j (by omega)) (by omega)
  exact ⟨onBeam, by omega⟩

/-- In a run from a reset through which the screen is on, the lines entered are the half dots
that have gone by and the displacements of the changes of speed, taken together and
divided by 912. Without a change of speed in the middle of a line they are the half dots
alone, and no step enters more than one line. A step that enters two lines is one that
slows the processor down. -/
theorem lines_of_lit_run (m : Machine) (n : Nat) (lit : ∀ k < n, (m.reset.after k).Lit)
    (room : ∑ k ∈ range n, (m.reset.after k).spent < 2 ^ 64) :
    let lines := ∑ k ∈ range n, (m.reset.after k).linesEntered
    let halfDots := ∑ k ∈ range n, (m.reset.after k).halfDots
    let displacement := ∑ k ∈ range n, (m.reset.after k).displacement
    ((m.reset.after n).bus.stored .ly).toNat = lines % 154 ∧
      (lines : Int) = (halfDots + displacement) / 912 ∧
      ((∀ k < n, (m.reset.after k).displacement = 0) →
        lines = halfDots / 912 ∧ ∀ k < n, (m.reset.after k).linesEntered ≤ 1) ∧
      ∀ k < n, (m.reset.after k).linesEntered ≤ 2 ∧
        ((m.reset.after k).linesEntered = 2 →
          (m.reset.after k).cpu.speed = 2 ∧ (m.reset.after (k + 1)).cpu.speed = 1) := by
  intro lines halfDots displacement
  have start := m.atLineStart_reset
  have fits : m.reset.cpu.cycles.toNat + ∑ k ∈ range n, (m.reset.after k).spent < 2 ^ 64 := by
    rw [reset_cycles]
    exact Nat.lt_of_le_of_lt (Nat.le_of_eq (Nat.zero_add _)) room
  obtain ⟨onBeam, -, line, count⟩ := count_of_lit start n lit fits
  have within := onBeam.within
  refine ⟨?_, by omega, ?_, ?_⟩
  · rw [line, m.reset_line, UInt8.toNat_zero, Nat.zero_add]
  · intro still
    have nowhere : displacement = 0 := by
      apply Finset.sum_eq_zero
      intro k inRange
      exact still k (Finset.mem_range.mp inRange)
    refine ⟨by omega, ?_⟩
    intro k before
    obtain ⟨begun, fits⟩ := onBeam_of_lit start before lit fits
    exact linesEntered_le_one begun (lit k before) fits (still k before)
  · intro k before
    obtain ⟨begun, fits⟩ := onBeam_of_lit start before lit fits
    exact (linesEntered_of_lit begun (lit k before) fits).2

/-! ## A change of speed late in a line -/

/-- The bytes of a program that asks for a change of speed, stops 110 idle instructions later,
and then idles on. -/
def lateSwitchBytes : Array UInt8 :=
  (((Array.replicate 0x8000 0x00).setIfInBounds 0x100 0xE0).setIfInBounds 0x101 0x4D).setIfInBounds
    0x170 0x10

/-- The program of the late switch fills a ROM of the least size. -/
theorem size_lateSwitchBytes : lateSwitchBytes.size = Rom.leastSize := by
  simp [lateSwitchBytes, Rom.leastSize, romBankSize]

/-- The program of the late switch by its bytes. -/
theorem getD_lateSwitchBytes {n : Nat} (low : n < 0x8000) :
    lateSwitchBytes.getD n 0xFF =
      if n = 0x170 then 0x10 else if n = 0x101 then 0x4D else if n = 0x100 then 0xE0 else 0 := by
  unfold lateSwitchBytes
  rw [Array.getD_eq_getD_getElem?]
  simp only [Array.getElem?_setIfInBounds, Array.getElem?_replicate, Array.size_setIfInBounds,
    Array.size_replicate]
  by_cases stop : n = 0x170
  · simp [stop]
  · by_cases operand : n = 0x101
    · simp [operand]
    · by_cases opcode : n = 0x100
      · simp [opcode]
      · simp [stop, operand, opcode, low, Ne.symm]

/-- The cartridge with that program. -/
def lateSwitch : Cartridge := .ofProgram lateSwitchBytes size_lateSwitchBytes

/-- A machine that starts with that program. -/
def lateSwitchMachine : Machine := (assemble lateSwitch #[]).reset

/-- Where the program has got to. -/
structure Idles (pc cycles : Nat) (speed key : UInt8) (cpu : Cpu) (bus : Hardware) : Prop where
  awake : cpu.halted = false
  forbidden : cpu.interruptsEnabled = false
  color : cpu.color = true
  pc : cpu.pc = UInt16.ofNat pc
  cycles : cpu.cycles = UInt64.ofNat cycles
  speed : cpu.speed = speed
  cartridge : bus.cartridge = lateSwitch
  boot : bus.stored .boot = 0x01
  lcdc : bus.stored .lcdc = 0x91
  key : bus.stored .key1 = key

namespace Idles

variable {pc cycles : Nat} {speed key : UInt8}

/-- A machine that runs the program reads its bytes. -/
theorem read {cpu : Cpu} {bus : Hardware} (h : Idles pc cycles speed key cpu bus) {n : Nat}
    (low : n < 0x8000) :
    AddressSpace.read bus (UInt16.ofNat n) =
      if n = 0x170 then 0x10 else if n = 0x101 then 0x4D else if n = 0x100 then 0xE0 else 0 := by
  have unmapped : bus.stored .boot ≠ 0 := by
    rw [h.boot]
    decide
  have shown : (UInt16.ofNat n).toNat = n := UInt16.toNat_ofNat_of_lt' (by
    show n < 65536
    omega)
  have below : UInt16.ofNat n < 0x8000 := by
    rw [UInt16.lt_iff_toNat_lt, shown]
    exact low
  have inside : (UInt16.ofNat n).toNat < bus.cartridge.rom.size := by
    rw [shown, h.cartridge, lateSwitch, Cartridge.ofProgram_size, size_lateSwitchBytes]
    exact low
  rw [bus.read_rom unmapped (by rw [h.cartridge]; rfl) below inside, shown, h.cartridge,
    lateSwitch, Cartridge.ofProgram_bytes, getD_lateSwitchBytes low]

/-- The step that comes next if the processor has done its part: where the program has got to
is left alone by the devices, and the screen was on when they caught up. -/
theorem step_of_acted {m : Machine} {s : System Hardware} {n : Nat} (acts : m.acted = some s)
    (before : m.cpu.cycles = UInt64.ofNat cycles) (few : n < 2 ^ 32)
    (h : Idles pc (cycles + n) speed key s.cpu s.bus) :
    m.Lit ∧ m.spent = n ∧ Idles pc (cycles + n) speed key m.step.1.cpu m.step.1.bus := by
  have update := s.bus.caughtUp_update s.cpu.cycles s.cpu.speed
  obtain ⟨-, heard, cartridge⟩ := finishStep_parts s m.cpu.cycles m.quit
  have kept : ∀ r, r.catchesUp = false → m.step.1.bus.stored r = s.bus.stored r := by
    intro r other
    rw [Machine.step_of_acted acts, heard, update.stored r other]
  have cpu : m.step.1.cpu = s.cpu := by rw [Machine.step_of_acted acts, finishStep_cpu]
  refine ⟨⟨?_, ?_⟩, ?_, ?_⟩
  · rw [Machine.step_of_acted acts]
    rfl
  · rw [kept .lcdc rfl, h.lcdc]
    decide
  · have later : s.cpu.cycles = m.cpu.cycles + UInt64.ofNat n := by
      rw [h.cycles, before, UInt64.ofNat_add]
    unfold spent
    rw [Machine.step_of_acted acts, finishStep_spent]
    exact toNat_reported few later
  · rw [cpu]
    refine ⟨h.awake, h.forbidden, h.color, h.pc, h.cycles, h.speed, ?_, ?_, ?_, ?_⟩
    · rw [Machine.step_of_acted acts, cartridge, update.cartridge]
      exact h.cartridge
    · rw [kept .boot rfl]
      exact h.boot
    · rw [kept .lcdc rfl]
      exact h.lcdc
    · rw [kept .key1 rfl]
      exact h.key

/-- Where there is no instruction to be done, the program idles on for four cycles. -/
theorem step_of_nop {m : Machine} (h : Idles pc cycles speed key m.cpu m.bus)
    (idle : AddressSpace.read m.bus (UInt16.ofNat pc) = 0) :
    m.Lit ∧ m.spent = 4 ∧ Idles (pc + 1) (cycles + 4) speed key m.step.1.cpu m.step.1.bus := by
  let nop : Operation := { action := .nop, length := 1, cycles := 4 }
  have decoded : decode m.cpu.registers m.bus m.cpu.pc = { operation := nop } := by
    unfold decode
    rw [h.pc, idle]
    rfl
  refine step_of_acted (acted_of_decode h.awake h.forbidden decoded rfl rfl) h.cycles
    (by decide) ?_
  show Idles _ _ _ _ (m.ready nop).cpu (m.ready nop).bus
  rw [System.ready_cpu, System.ready_bus]
  refine ⟨h.awake, h.forbidden, h.color, ?_, ?_, h.speed, h.cartridge, h.boot, h.lcdc, h.key⟩
  · rw [h.pc, UInt16.ofNat_add]
    rfl
  · rw [h.cycles, UInt64.ofNat_add]
    rfl

/-- The stop changes the speed, in four cycles. -/
theorem step_of_stop {m : Machine} (h : Idles pc cycles 1 0x01 m.cpu m.bus)
    (stop : AddressSpace.read m.bus (UInt16.ofNat pc) = 0x10) :
    m.Lit ∧ m.spent = 4 ∧ Idles (pc + 1) (cycles + 4) 2 0x80 m.step.1.cpu m.step.1.bus := by
  let halt : Operation := { action := .stop, length := 1, cycles := 4 }
  have decoded : decode m.cpu.registers m.bus m.cpu.pc = { operation := halt } := by
    unfold decode
    rw [h.pc, stop]
    rfl
  let ready := m.ready halt
  have color : ready.cpu.color = true := by
    unfold ready
    rw [System.ready_cpu]
    exact h.color
  have armed : AddressSpace.speedSwitchArmed ready.bus = true := by
    unfold ready
    rw [System.ready_bus]
    show (m.bus.stored .key1 &&& 0x01 != 0) = true
    rw [h.key]
    rfl
  have double : (if ready.cpu.speed = 1 then 2 else 1 : UInt8) = 2 := by
    unfold ready
    rw [System.ready_cpu]
    exact if_pos h.speed
  obtain ⟨switchedCpu, switchedBus⟩ := ready.switchSpeed_of_armed color armed
  refine step_of_acted (acted_of_decode h.awake h.forbidden decoded rfl rfl) h.cycles
    (by decide) ?_
  show Idles _ _ _ _ ready.switchSpeed.cpu ready.switchSpeed.bus
  rw [switchedCpu, switchedBus, double]
  unfold ready
  rw [System.ready_cpu, System.ready_bus]
  refine ⟨h.awake, h.forbidden, h.color, ?_, ?_, rfl, h.cartridge, ?_, ?_, ?_⟩
  · rw [h.pc, UInt16.ofNat_add]
    rfl
  · rw [h.cycles, UInt64.ofNat_add]
    rfl
  · exact (m.bus.stored_setStored .key1 .boot _).trans h.boot
  · exact (m.bus.stored_setStored .key1 .lcdc _).trans h.lcdc
  · exact m.bus.stored_setStored .key1 .key1 _

/-- The request of a change of speed takes twelve cycles. -/
theorem step_of_request {m : Machine} (h : Idles 0x100 0 1 0 m.cpu m.bus)
    (accumulator : m.cpu.registers.a = 0x11) :
    m.Lit ∧ m.spent = 12 ∧ Idles 0x102 12 1 0x01 m.step.1.cpu m.step.1.bus := by
  let load : Operation :=
    { action := .load8 (.io 0x4D) (.register .a), length := 2, cycles := 12 }
  have decoded : decode m.cpu.registers m.bus m.cpu.pc = { operation := load } := by
    unfold decode
    rw [h.pc, h.read (by decide)]
    show Decoder.plain (.load8 (Decoder.devicePlace m.bus (AddressSpace.read m.bus
      (UInt16.ofNat 0x101))) Decoder.accumulator) 2 12 = _
    rw [h.read (by decide)]
    rfl
  let ready := m.ready load
  let stored := (ready.mark (.register .a) .data).move (.io 0x4D) (.register .a)
  have storedCpu : stored.cpu = ready.cpu := by
    unfold stored
    rw [System.move_cpu, System.store_place _ (by rintro r ⟨⟩), System.mark_cpu]
  have storedBus : stored.bus = ready.bus.setStored .key1
      (Hardware.registerKeeps .key1 (ready.bus.stored .key1) ready.cpu.registers.a) := by
    unfold stored
    rw [System.move_bus, System.store_place _ (by rintro r ⟨⟩), System.mark_bus]
    show ready.bus.storeDevice 0x4D ((ready.mark _ _).cpu.registers.get .a) = _
    rw [System.mark_cpu]
    rfl
  have armed : Hardware.registerKeeps .key1 (ready.bus.stored .key1) ready.cpu.registers.a = 1 := by
    unfold ready
    rw [System.ready_cpu, System.ready_bus]
    show (m.bus.stored .key1 &&& 0x80) ||| (m.cpu.registers.a &&& 0x01) = 1
    rw [h.key, accumulator]
    rfl
  refine step_of_acted (acted_of_decode h.awake h.forbidden decoded rfl rfl) h.cycles
    (by decide) ?_
  show Idles _ _ _ _ stored.cpu stored.bus
  rw [storedCpu, storedBus, armed]
  unfold ready
  rw [System.ready_cpu, System.ready_bus]
  refine ⟨h.awake, h.forbidden, h.color, ?_, ?_, h.speed, h.cartridge, ?_, ?_, ?_⟩
  · rw [h.pc]
    rfl
  · rw [h.cycles]
    rfl
  · exact (m.bus.stored_setStored .key1 .boot _).trans h.boot
  · exact (m.bus.stored_setStored .key1 .lcdc _).trans h.lcdc
  · exact m.bus.stored_setStored .key1 .key1 _

/-- The program begins at its first byte, with the magic number of the accumulator. -/
theorem start :
    Idles 0x100 0 1 0 lateSwitchMachine.cpu lateSwitchMachine.bus ∧
      lateSwitchMachine.cpu.registers.a = 0x11 := by
  have cpu : lateSwitchMachine.cpu = ({ color := true } : Cpu).postBoot := rfl
  have bus : lateSwitchMachine.bus = (assemble lateSwitch #[]).bus.powerCycle.postBoot := rfl
  rw [cpu, bus]
  refine ⟨⟨rfl, rfl, rfl, rfl, rfl, rfl, rfl, ?_, ?_, ?_⟩, rfl⟩
  · rw [Hardware.stored_postBoot]
  · rw [Hardware.stored_postBoot]
  · rw [Hardware.stored_postBoot]

end Idles

/-- Before the stop the program has idled on, four cycles a step. -/
theorem lateSwitch_before (n : Nat) (idle : n ≤ 110) :
    let m := lateSwitchMachine.after (n + 1)
    Idles (0x102 + n) (12 + 4 * n) 1 0x01 m.cpu m.bus := by
  induction n with
  | zero =>
    obtain ⟨begun, accumulator⟩ := Idles.start
    obtain ⟨-, -, requested⟩ := Idles.step_of_request begun accumulator
    rw [after_succ, after_zero]
    exact requested
  | succ n ih =>
    have here := ih (by omega)
    have idles : AddressSpace.read (lateSwitchMachine.after (n + 1)).bus
        (UInt16.ofNat (0x102 + n)) = 0 := by
      rw [here.read (by omega), if_neg (by omega), if_neg (by omega), if_neg (by omega)]
    have cycles : 12 + 4 * (n + 1) = 12 + 4 * n + 4 := by omega
    rw [cycles, ← Nat.add_assoc]
    exact (here.step_of_nop idles).2.2

/-- The stop begins at single speed, and the step after it ends at double speed. -/
theorem lateSwitch_stop {k : Nat} (stop : k = 111) :
    let m := lateSwitchMachine.after k
    let next := lateSwitchMachine.after (k + 1)
    (m.Lit ∧ m.spent = 4 ∧ m.cpu.speed = 1) ∧ (next.Lit ∧ next.spent = 4 ∧ next.cpu.speed = 2) ∧
      next.step.1.cpu.speed = 2 := by
  -- The number of the step stays a variable, so that nothing unfolds the steps before it.
  obtain ⟨n, rfl⟩ : ∃ n, k = n + 1 := ⟨110, stop⟩
  have last : n = 110 := Nat.succ.inj stop
  have here := lateSwitch_before n (Nat.le_of_eq last)
  have stops : AddressSpace.read (lateSwitchMachine.after (n + 1)).bus
      (UInt16.ofNat (0x102 + n)) = 0x10 := by
    rw [here.read (by omega), if_pos (by omega)]
  obtain ⟨stopLit, stopSpent, stopped⟩ := here.step_of_stop stops
  have idles : AddressSpace.read (lateSwitchMachine.after (n + 2)).bus
      (UInt16.ofNat (0x102 + n + 1)) = 0 := by
    rw [after_succ, stopped.read (by omega), if_neg (by omega), if_neg (by omega),
      if_neg (by omega)]
  obtain ⟨idleLit, idleSpent, idled⟩ := stopped.step_of_nop idles
  exact ⟨⟨stopLit, stopSpent, here.speed⟩, ⟨idleLit, idleSpent, stopped.speed⟩, idled.speed⟩

/-- What the steps of the program cost, and at which speeds they begin and end. -/
theorem lateSwitch_step {k : Nat} (before : k < 113) :
    let m := lateSwitchMachine.after k
    m.Lit ∧ m.spent = (if k = 0 then 12 else 4) ∧ m.cpu.speed = (if k < 112 then 1 else 2) ∧
      m.step.1.cpu.speed = (if k < 111 then 1 else 2) := by
  show (lateSwitchMachine.after k).Lit ∧ _ ∧ (lateSwitchMachine.after k).cpu.speed = _ ∧
    (lateSwitchMachine.after k).step.1.cpu.speed = _
  obtain early | stop | last := (by omega : k < 111 ∨ k = 111 ∨ k = 112)
  · rw [if_pos early, if_pos (by omega : k < 112)]
    cases k with
    | zero =>
      obtain ⟨begun, accumulator⟩ := Idles.start
      obtain ⟨lit, spent, requested⟩ := Idles.step_of_request begun accumulator
      rw [after_zero]
      exact ⟨lit, spent, begun.speed, requested.speed⟩
    | succ n =>
      have here := lateSwitch_before n (by omega)
      have idles : AddressSpace.read (lateSwitchMachine.after (n + 1)).bus
          (UInt16.ofNat (0x102 + n)) = 0 := by
        rw [here.read (by omega), if_neg (by omega), if_neg (by omega), if_neg (by omega)]
      obtain ⟨lit, spent, idled⟩ := here.step_of_nop idles
      rw [if_neg (Nat.succ_ne_zero n)]
      exact ⟨lit, spent, here.speed, idled.speed⟩
  · obtain ⟨⟨lit, spent, old⟩, ⟨-, -, new⟩, -⟩ := lateSwitch_stop stop
    rw [if_neg (by omega : ¬k = 0), if_pos (by omega : k < 112), if_neg (by omega : ¬k < 111)]
    exact ⟨lit, spent, old, new⟩
  · obtain ⟨p, rfl⟩ : ∃ p, k = p + 1 := ⟨111, last⟩
    obtain ⟨-, ⟨lit, spent, old⟩, new⟩ := lateSwitch_stop (Nat.succ.inj last)
    rw [if_neg (by omega), if_neg (by omega), if_neg (by omega)]
    exact ⟨lit, spent, old, new⟩

/-- The steps of the program up to the late line take 460 cycles. -/
theorem lateSwitch_spent :
    ∑ k ∈ range 113, (lateSwitchMachine.after k).spent = 460 := by
  have each : ∀ k ∈ range 113, (lateSwitchMachine.after k).spent = if k = 0 then 12 else 4 := by
    intro k inRange
    exact (lateSwitch_step (Finset.mem_range.mp inRange)).2.1
  rw [Finset.sum_congr rfl each]
  rfl

/-- The half dots of the program, step by step. -/
theorem lateSwitch_halfDots {n : Nat} (within : n ≤ 113) :
    ∑ k ∈ range n, (lateSwitchMachine.after k).halfDots =
      ∑ k ∈ range n, if k = 0 then 24 else if k < 111 then 8 else 4 := by
  apply Finset.sum_congr rfl
  intro k inRange
  have before := Finset.mem_range.mp inRange
  obtain ⟨-, spent, -, speed⟩ := lateSwitch_step (k := k) (by omega)
  rw [halfDots, spent, speed]
  by_cases early : k < 111
  · rw [if_pos early, if_pos early, if_neg (by decide)]
    by_cases first : k = 0
    · rw [if_pos first, if_pos first]
    · rw [if_neg first, if_neg first]
  · rw [if_neg early, if_neg early, if_pos rfl, if_neg (by omega), if_neg (by omega)]

/-- Before the stop nothing displaces the beam. -/
theorem lateSwitch_displacement {k : Nat} (before : k < 111) :
    (lateSwitchMachine.after k).displacement = 0 := by
  obtain ⟨-, -, old, new⟩ := lateSwitch_step (k := k) (by omega)
  rw [displacement, old, new, if_pos before, if_pos (by omega : k < 112), if_pos rfl]

/-- The lines and half dots of the program up to any step. -/
theorem lateSwitch_count {n : Nat} (within : n ≤ 113) :
    let m := lateSwitchMachine.after n
    m.OnBeam ∧
      (m.bus.stored .ly).toNat = (∑ k ∈ range n, (lateSwitchMachine.after k).linesEntered) % 154 ∧
      912 * (∑ k ∈ range n, (lateSwitchMachine.after k).linesEntered : Nat) + m.beam =
        (∑ k ∈ range n, (lateSwitchMachine.after k).halfDots : Nat) +
          ∑ k ∈ range n, (lateSwitchMachine.after k).displacement := by
  have start : lateSwitchMachine.AtLineStart := atLineStart_reset _
  have begins : lateSwitchMachine.cpu.cycles.toNat = 0 := rfl
  have line : (lateSwitchMachine.bus.stored .ly).toNat = 0 := by
    rw [lateSwitchMachine, reset_line]
    rfl
  have part : ∑ k ∈ range n, (lateSwitchMachine.after k).spent ≤ 460 := by
    rw [← lateSwitch_spent]
    exact Finset.sum_le_sum_of_subset (Finset.range_mono within)
  obtain ⟨onBeam, -, entered, count⟩ := count_of_lit start n
    (fun k before => (lateSwitch_step (by omega)).1) (by omega)
  rw [line, Nat.zero_add] at entered
  exact ⟨onBeam, entered, count⟩

/-- The stop comes 452 cycles into line 0, and moves the beam back by as many half dots. -/
theorem lateSwitch_displaced :
    ∑ k ∈ range 113, (lateSwitchMachine.after k).displacement = -452 := by
  have stop : ∀ k, k = 111 → (lateSwitchMachine.after k).displacement = -452 := by
    intro k here
    obtain ⟨onBeam, -, count⟩ := lateSwitch_count (n := k) (by omega)
    obtain ⟨-, -, old, new⟩ := lateSwitch_step (k := k) (by omega)
    have before : ∑ j ∈ range k, (lateSwitchMachine.after j).displacement = 0 := by
      apply Finset.sum_eq_zero
      intro j inRange
      have earlier := Finset.mem_range.mp inRange
      exact lateSwitch_displacement (by omega)
    have gone : ∑ j ∈ range k, (lateSwitchMachine.after j).halfDots = 904 := by
      rw [lateSwitch_halfDots (by omega), here]
      rfl
    have within := onBeam.within
    rw [if_pos (by omega : k < 112)] at old
    rw [if_neg (by omega : ¬k < 111)] at new
    have single : (lateSwitchMachine.after k).beam = 2 * (lateSwitchMachine.after k).intoLine := by
      rw [beam, old, if_neg (by decide)]
    rw [displacement, old, new, if_neg (by decide), if_pos rfl]
    omega
  have idle : (lateSwitchMachine.after 112).displacement = 0 := by
    obtain ⟨-, -, old, new⟩ := lateSwitch_step (by decide : 112 < 113)
    rw [displacement, old, new]
    rfl
  have before : ∑ k ∈ range 111, (lateSwitchMachine.after k).displacement = 0 := by
    apply Finset.sum_eq_zero
    intro k inRange
    exact lateSwitch_displacement (Finset.mem_range.mp inRange)
  rw [Finset.sum_range_succ, Finset.sum_range_succ, before, stop 111 rfl, idle]
  rfl

/-- A change of speed late in a line costs the screen dots: the half dots of a whole line have
gone by, and the screen is in line 0 still. -/
theorem lines_fall_behind_dots :
    (∀ k < 113, (lateSwitchMachine.after k).Lit) ∧
      (∑ k ∈ range 113, (lateSwitchMachine.after k).halfDots) / 912 = 1 ∧
      ∑ k ∈ range 113, (lateSwitchMachine.after k).linesEntered = 0 ∧
      ((lateSwitchMachine.after 113).bus.stored .ly).toNat = 0 := by
  have dots : ∑ k ∈ range 113, (lateSwitchMachine.after k).halfDots = 912 := by
    rw [lateSwitch_halfDots (Nat.le_refl 113)]
    rfl
  obtain ⟨onBeam, line, count⟩ := lateSwitch_count (Nat.le_refl 113)
  have displaced := lateSwitch_displaced
  have none : ∑ k ∈ range 113, (lateSwitchMachine.after k).linesEntered = 0 := by omega
  rw [dots, none]
  rw [none] at line
  exact ⟨fun k before => (lateSwitch_step before).1, rfl, rfl, line⟩

/-- The program of the late switch is a run through which the screen is on, so its lines are the
half dots and the displacements. -/
theorem lines_of_late_switch :
    let m := (assemble lateSwitch #[]).reset
    (∀ k < 113, (m.after k).Lit) ∧ ∑ k ∈ range 113, (m.after k).spent < 2 ^ 64 ∧
      ((m.after 113).bus.stored .ly).toNat = (∑ k ∈ range 113, (m.after k).linesEntered) % 154 ∧
      (∑ k ∈ range 113, (m.after k).linesEntered : Nat) =
        (((∑ k ∈ range 113, (m.after k).halfDots : Nat) : Int) +
          ∑ k ∈ range 113, (m.after k).displacement) / 912 ∧
      ∀ k < 113, (m.after k).linesEntered ≤ 2 := by
  have lit : ∀ k < 113, (lateSwitchMachine.after k).Lit := by
    intro k before
    exact (lateSwitch_step before).1
  have room : ∑ k ∈ range 113, (lateSwitchMachine.after k).spent < 2 ^ 64 := by
    rw [lateSwitch_spent]
    decide
  obtain ⟨line, lines, -, each⟩ := lines_of_lit_run (assemble lateSwitch #[]) 113 lit room
  exact ⟨lit, room, line, lines, fun k before => (each k before).1⟩

end Machine

end Handheld
