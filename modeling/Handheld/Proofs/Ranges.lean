import Handheld.Proofs.Counter
import Handheld.Proofs.Hardware.CatchUp
import Handheld.Proofs.Hardware.Stores

/-!
# Values stay in range

Whatever is asked of a machine, its device registers keep only values that fit into
them, and as long as the cycle counter has not wrapped no device remembers a moment
that lies ahead. So the line counter has room for the next line, and the screen never
subtracts a later time from an earlier one.

Stores and interrupt requests are judged by the register they reach (`Fits`); the
times are ordered along the way from the devices to the processor.
-/

set_option autoImplicit false

namespace Handheld

/-- The packed flags use the upper four bits only. -/
theorem Flags.toByte_low (flags : Flags) : flags.toByte &&& 0x0F = 0 := by
  rcases flags with ⟨_ | _, _ | _, _ | _, _ | _⟩ <;> rfl

namespace Hardware

/-! ## What fits into a register -/

/-- The values that a device register may keep. -/
def DeviceRegister.Fits : DeviceRegister → UInt8 → Prop
  | .p1, value => value &&& 0xCF = 0
  | .irq, value => value &&& 0xE0 = 0
  | .stat, value => value &&& 0x80 = 0
  | .ly, value => value.toNat < 154
  | .key1, value => value &&& 0x7E = 0
  | .vbk, value => value ≤ 1
  | .svbk, value => value ≤ 7
  | .boot, value => value ≤ 1
  | _, _ => True

/-- Masks that have no bit in common leave nothing of a value. -/
theorem and_and_zero (value : UInt8) {mask others : UInt8} (apart : mask &&& others = 0) :
    value &&& mask &&& others = 0 := by
  rw [UInt8.and_assoc, apart, UInt8.and_zero]

/-- A masked value is at most the mask. -/
theorem and_le (value mask : UInt8) : value &&& mask ≤ mask := by
  rw [UInt8.le_iff_toNat_le, UInt8.toNat_and]
  exact Nat.and_le_right

/-- What fitted before a store fits after it. -/
theorem fits_registerKeeps (r : DeviceRegister) {stored : UInt8} (fits : r.Fits stored)
    (value : UInt8) : r.Fits (registerKeeps r stored value) := by
  cases r with
  | p1 => exact and_and_zero value rfl
  | irq => exact and_and_zero value rfl
  | stat =>
    show ((stored &&& 0x07) ||| (value &&& 0x78)) &&& 0x80 = 0
    rw [or_and_mask, and_and_zero stored rfl, and_and_zero value rfl, UInt8.or_zero]
  | ly => exact fits
  | key1 =>
    show ((stored &&& 0x80) ||| (value &&& 0x01)) &&& 0x7E = 0
    rw [or_and_mask, and_and_zero stored rfl, and_and_zero value rfl, UInt8.or_zero]
  | vbk => exact and_le value 1
  | svbk => exact and_le value 7
  | boot =>
    have low : stored.toNat ≤ 1 := UInt8.le_iff_toNat_le.mp fits
    have cases : stored = 0 ∨ stored = 1 := by
      rw [← UInt8.toNat_inj, ← UInt8.toNat_inj]
      show stored.toNat = 0 ∨ stored.toNat = 1
      omega
    show stored ||| (if value = 0 then 0 else 1) ≤ 1
    obtain rfl | rfl := cases
    · split <;> decide
    · split <;> decide
  | _ => trivial

/-- Every device register keeps a value that fits into it. -/
def Fitting (hw : Hardware) : Prop := ∀ r : DeviceRegister, r.Fits (hw.stored r)

namespace Fitting

variable {hw next : Hardware}

/-- A register may be set to a value that fits it. -/
theorem setStored (h : hw.Fitting) {r : DeviceRegister} {value : UInt8} (fits : r.Fits value) :
    (hw.setStored r value).Fitting := by
  intro q
  rw [stored_setStored]
  split
  next same =>
    subst same
    exact fits
  next => exact h q

/-- A store keeps all registers fitting. -/
theorem written (h : hw.Fitting) (store : Written hw next) : next.Fitting := by
  intro r
  obtain same | ⟨value, kept⟩ := store.stored r
  · rw [same]
    exact h r
  · rw [kept]
    exact fits_registerKeeps r (h r) value

/-- Catching up keeps all registers fitting. -/
theorem caughtUp {now : UInt64} (h : hw.Fitting) (update : CaughtUp hw next now) :
    next.Fitting := by
  intro r
  have kept : r.catchesUp = false → r.Fits (next.stored r) := by
    intro other
    rw [update.stored r other]
    exact h r
  cases r with
  | ly => exact update.line (h .ly)
  | stat => exact update.status.trans (h .stat)
  | irq => exact update.requests.trans (h .irq)
  | sb | sc | tima => trivial
  | _ => exact kept rfl

/-- Taking back a request keeps all registers fitting. -/
theorem takeBack (h : hw.Fitting) (requests : UInt8) :
    (hw.setStored .irq (requests &&& 0x1F)).Fitting := by
  have fits : DeviceRegister.irq.Fits (requests &&& 0x1F) := and_and_zero requests rfl
  exact h.setStored fits

/-- A change of speed keeps all registers fitting. -/
theorem switchSpeed (h : hw.Fitting) (double : Bool) :
    (hw.setStored .key1 (if double then 0x80 else 0x00)).Fitting := by
  have fits : DeviceRegister.key1.Fits (if double then 0x80 else 0x00) := by
    show (if double then (0x80 : UInt8) else 0x00) &&& 0x7E = 0
    split <;> rfl
  exact h.setStored fits

/-- Raising an interrupt keeps all registers fitting. -/
theorem raiseInterrupt (h : hw.Fitting) (mask : UInt8) : (hw.raiseInterrupt mask).Fitting := by
  have fits : DeviceRegister.irq.Fits (hw.stored .irq ||| (mask &&& 0x1F)) := by
    show (hw.stored .irq ||| (mask &&& 0x1F)) &&& 0xE0 = 0
    have others : hw.stored .irq &&& 0xE0 = 0 := h .irq
    rw [or_and_mask, others, and_and_zero mask rfl, UInt8.or_zero]
  exact h.setStored fits

end Fitting

/-! ## Hardware in range -/

/-- Every register keeps what fits, at most a byte is left to shift, and no device is
ahead of the time they were last told. -/
structure InRange (hw : Hardware) : Prop where
  registers : ∀ r : DeviceRegister, r.Fits (hw.stored r)
  bits : hw.serial.bitsLeft ≤ 8
  divider : hw.timer.dividerStart ≤ hw.now
  counter : hw.timer.lastTick ≤ hw.now
  screen : hw.lineStart ≤ hw.now

namespace InRange

variable {hw next : Hardware}

/-- Setting a register keeps the hardware in range, if all registers still fit. -/
theorem setStored (h : hw.InRange) {r : DeviceRegister} {value : UInt8}
    (fitting : (hw.setStored r value).Fitting) : (hw.setStored r value).InRange where
  registers := fitting
  bits := h.bits
  divider := h.divider
  counter := h.counter
  screen := h.screen

/-- A store keeps the hardware in range. -/
theorem written (h : hw.InRange) (store : Written hw next) : next.InRange where
  registers := Fitting.written h.registers store
  bits := by
    obtain same | full := store.bits
    · rw [same]
      exact h.bits
    · exact Nat.le_of_eq full
  divider := by
    rw [store.now]
    obtain same | anew := store.timer
    · rw [same]
      exact h.divider
    · rw [anew]
      exact UInt64.le_refl _
  counter := by
    rw [store.now]
    obtain same | anew := store.timer
    · rw [same]
      exact h.counter
    · rw [anew]
      exact h.counter
  screen := by
    rw [store.now, store.lineStart]
    exact h.screen

/-- With time the hardware stays in range. -/
theorem later (h : hw.InRange) {now : UInt64} (order : hw.now ≤ now) :
    { hw with now }.InRange where
  registers := h.registers
  bits := h.bits
  divider := UInt64.le_trans h.divider order
  counter := UInt64.le_trans h.counter order
  screen := UInt64.le_trans h.screen order

/-- Catching up keeps the hardware in range. -/
theorem caughtUp (h : hw.InRange) {now : UInt64} (order : hw.now ≤ now)
    (update : CaughtUp hw next now) : next.InRange where
  registers := Fitting.caughtUp h.registers update
  bits := Nat.le_trans update.bits h.bits
  divider := by
    rw [update.time, update.divider]
    exact UInt64.le_trans h.divider order
  counter := by
    rw [update.time]
    exact update.lastTick (UInt64.le_trans h.counter order)
  screen := by
    rw [update.time]
    exact update.lineStart (UInt64.le_trans h.screen order)

end InRange

/-! ## After a reset -/

/-- Zero fits every register. -/
theorem fits_zero (r : DeviceRegister) : r.Fits 0 := by
  cases r with
  | ly => exact (by decide : (0 : UInt8).toNat < 154)
  | vbk => exact (by decide : (0 : UInt8) ≤ 1)
  | svbk => exact (by decide : (0 : UInt8) ≤ 7)
  | boot => exact (by decide : (0 : UInt8) ≤ 1)
  | _ => first | rfl | trivial

/-- After a power cycle the hardware is in range. -/
theorem inRange_powerCycle (hw : Hardware) : hw.powerCycle.InRange where
  registers r := by
    rw [stored_powerCycle]
    exact fits_zero r
  bits := Nat.zero_le 8
  divider := UInt64.le_refl 0
  counter := UInt64.le_refl 0
  screen := UInt64.le_refl 0

/-- After the boot program the hardware is in range. -/
theorem inRange_postBoot (hw : Hardware) : hw.powerCycle.postBoot.InRange where
  registers r := by
    rw [stored_postBoot]
    cases r with
    | lcdc => trivial
    | boot => exact UInt8.le_refl 1
    | _ => exact fits_zero _
  bits := Nat.zero_le 8
  divider := UInt64.le_refl 0
  counter := UInt64.le_refl 0
  screen := UInt64.le_refl 0

end Hardware

/-! ## The processor at work -/

/-- Whatever a processor does leaves in the device registers what fits into them. -/
theorem System.Proceeds.fitting {s s' : System Hardware} {n : Nat} (h : Proceeds s n s')
    (before : s.bus.Fitting) : s'.bus.Fitting := by
  induction h with
  | think _ bus | spend _ _ bus | tick _ _ bus =>
    rw [bus]
    exact before
  | @store s _ place value _ bus =>
    rw [bus]
    exact before.written (s.bus.written_store place value)
  | takeBack _ _ bus =>
    rw [bus]
    exact before.takeBack _
  | switch _ _ _ bus =>
    rw [bus]
    exact before.switchSpeed _
  | trans _ _ first second => exact second (first before)

/-- All is in range, and the devices have not been told a time that lies ahead. -/
def InRange (cpu : Cpu) (bus : Hardware) : Prop := bus.InRange ∧ bus.now ≤ cpu.cycles

/-- As long as the counter does not wrap, what a processor does leaves all in range. -/
theorem System.Proceeds.inRange {s s' : System Hardware} {n : Nat} (h : Proceeds s n s')
    (room : s.cpu.cycles.toNat + n < 2 ^ 64) (before : InRange s.cpu s.bus) :
    InRange s'.cpu s'.bus := by
  have forwards := h.le_of_room room
  induction h with
  | think pace bus =>
    have same := congrArg Cpu.Pace.cycles pace
    rw [bus]
    exact ⟨before.1, UInt64.le_trans before.2 forwards⟩
  | @store s t place value pace bus =>
    have written := s.bus.written_store place value
    have clock := UInt64.le_trans before.2 forwards
    rw [← written.now] at clock
    rw [bus]
    exact ⟨before.1.written written, clock⟩
  | spend cycles pace bus =>
    rw [bus]
    exact ⟨before.1, UInt64.le_trans before.2 forwards⟩
  | @tick s t cycles pace bus =>
    have shown : t.cpu.cycles = s.cpu.cycles + cycles := congrArg Cpu.Pace.cycles pace
    rw [shown] at forwards
    rw [bus]
    exact ⟨before.1.later (UInt64.le_trans before.2 forwards), UInt64.le_of_eq shown.symm⟩
  | takeBack source pace bus =>
    rw [bus]
    exact ⟨before.1.setStored (.takeBack before.1.registers _), UInt64.le_trans before.2 forwards⟩
  | switch speed other pace bus =>
    rw [bus]
    exact ⟨before.1.setStored (.switchSpeed before.1.registers _),
      UInt64.le_trans before.2 forwards⟩
  | @trans s t u m n first second ihFirst ihSecond =>
    -- If the whole way does not wrap the counter, neither does a part of it.
    have roomFirst : s.cpu.cycles.toNat + m < 2 ^ 64 := by omega
    have middle := first.toNat_cycles roomFirst
    have roomSecond : t.cpu.cycles.toNat + n < 2 ^ 64 := by omega
    exact ihSecond roomSecond (ihFirst roomFirst before (first.le_of_room roomFirst))
      (second.le_of_room roomSecond)

/-- Neither the cartridge nor the mode is a concern of the ranges, and neither is a request
to start anew. -/
theorem InRange.refitted {cpu : Cpu} {bus : Hardware} (h : InRange cpu bus)
    (cartridge : Cartridge) (color rebootRequested : Bool) :
    InRange cpu { bus with cartridge, color, rebootRequested } :=
  ⟨⟨h.1.registers, h.1.bits, h.1.divider, h.1.counter, h.1.screen⟩, h.2⟩

/-- Raising an interrupt keeps the hardware in range. -/
theorem Hardware.InRange.raiseInterrupt {hw : Hardware} (h : hw.InRange) (mask : UInt8) :
    (hw.raiseInterrupt mask).InRange :=
  h.setStored (.raiseInterrupt h.registers mask)

namespace Lcd

/-- While the screen catches up its line counter has room for each next line, and no line
begins after `now`. -/
def Sound (lineStart now : UInt64) (speed awaited : UInt8) (registers : LcdRegisters) : Prop :=
  let lineTime := dotsPerLine * speedFactor speed
  ∀ n ≤ periodsGone lineTime lineStart now,
    let progress := nextLines lineTime awaited n { lineStart, registers }
    progress.registers.line.toNat + 1 < 2 ^ 8 ∧ progress.lineStart ≤ now

/-- A line inside the frame is a sound start for catching up. -/
theorem sound_of_inside {lineStart now : UInt64} (order : lineStart ≤ now)
    {line : UInt8} (inside : line.toNat < 154) (speed awaited status : UInt8) :
    Sound lineStart now speed awaited ⟨line, status⟩ := by
  intro n gone progress
  have entered : progress.registers.line.toNat = (line.toNat + n) % 154 :=
    nextLines_line _ awaited n inside
  have below : (line.toNat + n) % 154 < 154 := Nat.mod_lt _ (by decide)
  have begun : progress.lineStart =
      lineStart + UInt64.ofNat n * (dotsPerLine * speedFactor speed) :=
    nextLines_lineStart ..
  rw [entered, begun]
  exact ⟨by omega, periods_le order gone⟩

end Lcd

namespace Machine

/-- The registers keep what fits even if the counter wraps. -/
theorem invariant_fitting : Invariant (fun _ _ => True) fun _ bus => bus.Fitting where
  work := by
    intro s s' n proceeds _ _ before
    exact proceeds.fitting before
  catchUp := by
    intro cpu bus before
    exact before.caughtUp (bus.caughtUp_update cpu.cycles cpu.speed)
  hear := by
    intro cpu bus before
    exact before
  raise := by
    intro cpu bus before mask halted
    exact before.raiseInterrupt mask
  insert := by
    intro cpu bus before cartridge
    exact before
  install := by
    intro cpu bus before controller
    exact before
  reset := by
    intro m
    obtain ⟨-, bus⟩ | ⟨-, bus⟩ := m.reset_outcome
    · rw [bus]
      exact m.bus.inRange_powerCycle.registers
    · rw [bus]
      exact m.bus.inRange_postBoot.registers

/-- In a session from a reset all registers fit. -/
theorem session_fitting (m : Machine) (requests : List Request) :
    (m.reset.session requests).1.bus.Fitting :=
  invariant_fitting.session (along_of_always (fun _ _ => trivial) _ _)
    (invariant_fitting.reset m)

/-- In a session without a wrap of the counter the hardware is in range. -/
theorem invariant_inRange : Invariant (· ≤ ·) InRange where
  work := by
    intro s s' n proceeds short up before
    exact proceeds.inRange (proceeds.room_of_le short up) before
  catchUp := by
    intro cpu bus before
    have update := bus.caughtUp_update cpu.cycles cpu.speed
    exact ⟨before.1.caughtUp before.2 update, UInt64.le_of_eq update.time⟩
  hear := by
    intro cpu bus before
    exact before.refitted bus.cartridge bus.color false
  raise := by
    intro cpu bus before mask halted
    exact ⟨before.1.raiseInterrupt mask, before.2⟩
  insert := by
    intro cpu bus before cartridge
    exact before.refitted cartridge cartridge.header.color bus.rebootRequested
  install := by
    intro cpu bus before controller
    exact before.refitted (bus.cartridge.install controller) bus.color bus.rebootRequested
  reset := by
    intro m
    obtain ⟨cpu, bus⟩ | ⟨cpu, bus⟩ := m.reset_outcome
    · rw [cpu, bus]
      exact ⟨m.bus.inRange_powerCycle, UInt64.le_refl 0⟩
    · rw [cpu, bus]
      exact ⟨m.bus.inRange_postBoot, UInt64.le_refl 0⟩

/-- In a session that does not wrap the counter every value stays in range: those of the
device registers and of register F, the bits left to shift, and the times, none of which
lies after that of the devices or of the processor. So in the update of the screen at the
end of the next step, if that does not wrap the counter either, no line counter overflows
and no line begins ahead of time. -/
theorem session_in_range (m : Machine) (requests : List Request)
    (unwrapped : m.reset.Unwrapped requests) :
    let last := (m.reset.session requests).1
    last.bus.InRange ∧ last.bus.now ≤ last.cpu.cycles ∧
      last.cpu.registers.get .f &&& 0x0F = 0 ∧
      ∀ s, last.acted = some s → last.cpu.cycles ≤ s.cpu.cycles →
        let hw := { s.bus with now := s.cpu.cycles }.updateTimer.updateSerial
        Lcd.Sound hw.lineStart hw.now s.cpu.speed (hw.stored .lyc)
          ⟨hw.stored .ly, hw.stored .stat⟩ := by
  intro last
  have inRange : InRange last.cpu last.bus :=
    invariant_inRange.session unwrapped (invariant_inRange.reset m)
  refine ⟨inRange.1, inRange.2, Flags.toByte_low _, ?_⟩
  intro s acts up hw
  obtain ⟨n, short, proceeds⟩ := proceeds_of_acted acts
  have acted := proceeds.inRange (proceeds.room_of_le (by omega) up) inRange
  obtain ⟨lineStart, now, line, -, -⟩ :=
    Hardware.updateSerial_updateTimer_screen { s.bus with now := s.cpu.cycles }
  have order : hw.lineStart ≤ hw.now := by
    rw [lineStart, now]
    exact UInt64.le_trans acted.1.screen acted.2
  have inside : (hw.stored .ly).toNat < 154 := by
    rw [line]
    exact acted.1.registers .ly
  exact Lcd.sound_of_inside order inside _ _ _

/-- The requests write to the line counter and ask for every interrupt, change the speed,
exchange the cartridge, and let the screen run for a frame and longer. -/
theorem session_in_range_of_busy :
    let stop : Operation := { action := .stop, length := 1, cycles := 4 }
    let requests : List Request :=
      [.write 0xFF44 0xFF, .write 0xFF4D 0x01, .execute stop, .raiseInterrupt 0xFF,
        .run (some 100000), .swap .empty {}, .stepFrame, .serviceInterrupt 0x0040, .step]
    let m := assemble .empty #[]
    m.reset.Unwrapped requests ∧ (m.reset.session requests).1.bus.InRange ∧
      (m.reset.session requests).1.bus.now ≤ (m.reset.session requests).1.cpu.cycles := by
  intro stop requests m
  have unwrapped : m.reset.Unwrapped requests := by
    apply unwrapped_of_room
    rw [reset_cycles]
    decide
  have all := session_in_range m requests unwrapped
  exact ⟨unwrapped, all.1, all.2.1⟩

end Machine

end Handheld
