import Mathlib.Data.List.Pairwise
import Handheld.Proofs.Device.LcdEvents
import Handheld.Proofs.Requests

/-!
# A transfer takes eight bit times

A transfer is not timed by a clock of its own. Whenever the devices catch up, the bits are shifted
that have become due since the last time, each as if it had been shifted on time. So at the
moments at which the devices catch up, the data register shows as many ones from the open line as
bit times have gone by since the transfer was started, whatever these moments are
(`Sending.shiftDue`).

The time at which the next bit is due is kept in 64 bits. A transfer that is started less than
eight bit times before the end of the count comes to a bit whose time lies past the end. That time
starts again from zero, and so this bit and all that are left are shifted together with the one
before (`lastShift`).

Between them anything may happen to the hardware that leaves the transfer alone
(`Activity.Disturbs`). The last bit is then shifted the first time that the devices catch up when
eight bit times have gone by, and never again (`Sends.completions`).
-/

set_option autoImplicit false

namespace Handheld

namespace SerialInterface

/-! ## The bits that have come in -/

/-- A byte of which so many bits have gone out, while ones came in. -/
def shiftedOut (byte : UInt8) (bits : Nat) : Nat :=
  (byte.toNat <<< bits ||| (2 ^ bits - 1)) % 256

/-- Before the first shift all of the byte is there. -/
theorem shiftedOut_zero (byte : UInt8) : shiftedOut byte 0 = byte.toNat := by
  have := byte.toNat_lt
  simp only [shiftedOut, Nat.shiftLeft_zero, Nat.pow_zero, Nat.sub_self, Nat.or_zero]
  omega

/-- The ones are below the bits of the byte. -/
theorem shiftedOut_eq (byte : UInt8) (bits : Nat) :
    shiftedOut byte bits = (byte.toNat * 2 ^ bits + (2 ^ bits - 1)) % 256 := by
  have positive := Nat.two_pow_pos bits
  unfold shiftedOut
  rw [← Nat.shiftLeft_add_eq_or_of_lt (by omega), Nat.shiftLeft_eq]

/-- One bit more. -/
theorem toNat_shift {byte data : UInt8} {bits : Nat} (shown : data.toNat = shiftedOut byte bits) :
    ((data <<< 1) ||| 0x01).toNat = shiftedOut byte (bits + 1) := by
  have positive := Nat.two_pow_pos bits
  have even : data.toNat <<< 1 % 256 = (data.toNat % 128) <<< 1 := by
    simp only [Nat.shiftLeft_eq]
    omega
  have added : data.toNat <<< 1 % 256 ||| 1 = data.toNat % 128 * 2 + 1 := by
    rw [even, ← Nat.shiftLeft_add_eq_or_of_lt (by decide), Nat.shiftLeft_eq]
  have doubled : byte.toNat * 2 ^ (bits + 1) = byte.toNat * 2 ^ bits * 2 := by
    rw [Nat.pow_succ, Nat.mul_assoc]
  show data.toNat <<< 1 % 256 ||| 1 = _
  rw [added, shown, shiftedOut_eq, shiftedOut_eq, doubled, Nat.pow_succ]
  omega

/-! ## A transfer under way -/

/-- The cycles that a bit takes: color machines have a fast clock, which the control byte asks
for. -/
def bitCycles (control : UInt8) (color : Bool) : Nat :=
  if color = true ∧ control &&& 0x02 ≠ 0 then 16 else 512

/-- A bit takes some cycles. -/
theorem bitCycles_pos (control : UInt8) (color : Bool) : 0 < bitCycles control color := by
  unfold bitCycles
  split <;> decide

/-- The time of a bit, as a number of cycles. -/
theorem bitTimeOf_eq (control : UInt8) (color : Bool) :
    bitTimeOf control color = UInt64.ofNat (bitCycles control color) := by
  unfold bitTimeOf bitCycles
  by_cases fast : color = true ∧ control &&& 0x02 ≠ 0
  · rw [if_pos fast, if_pos (by simpa using fast)]
    rfl
  · rw [if_neg fast, if_neg (by simpa using fast)]
    rfl

/-- A bit takes at most 512 cycles. -/
theorem bitCycles_le (control : UInt8) (color : Bool) : bitCycles control color ≤ 512 := by
  unfold bitCycles
  split <;> decide

/-! ## The bits that are due -/

/-- The bit times after the start, up to the eighth, that end at a time that can be counted. -/
def countableBits (start bitTime : Nat) : Nat := min 8 ((2 ^ 64 - 1 - start) / bitTime)

/-- Never more than eight bits are counted. -/
theorem countableBits_le (start bitTime : Nat) : countableBits start bitTime ≤ 8 :=
  Nat.min_le_left ..

/-- The time at which the last bit is shifted: eight bit times after the start, or, if these
cannot be counted, the end of the last bit time that can. -/
def lastShift (start bitTime : Nat) : Nat := start + countableBits start bitTime * bitTime

/-- The bits that are due at a time. With the last one all are. -/
def bitsDue (start bitTime now : Nat) : Nat :=
  if lastShift start bitTime ≤ now then 8 else (now - start) / bitTime

section

variable {start bitTime now : Nat} (positive : 0 < bitTime)
include positive

/-- So many bits can be counted exactly if the last of them is due before the counter wraps. -/
theorem le_countableBits_iff (started : start < 2 ^ 64) {bits : Nat} (few : bits ≤ 8) :
    bits ≤ countableBits start bitTime ↔ start + bits * bitTime < 2 ^ 64 := by
  have counted : bits ≤ (2 ^ 64 - 1 - start) / bitTime ↔ bits * bitTime ≤ 2 ^ 64 - 1 - start :=
    Nat.le_div_iff_mul_le positive
  unfold countableBits
  omega

/-- Far enough from the end of the count the last bit is shifted after eight bit times. -/
theorem lastShift_of_room (room : start + 8 * bitTime < 2 ^ 64) :
    lastShift start bitTime = start + 8 * bitTime := by
  have all := (le_countableBits_iff positive (by omega) (Nat.le_refl 8)).mpr room
  unfold lastShift
  rw [Nat.le_antisymm (countableBits_le start bitTime) all]

/-- Before the last shift only bits are due whose time can be counted. -/
theorem div_lt_countableBits (order : start ≤ now) (before : now < lastShift start bitTime) :
    (now - start) / bitTime < countableBits start bitTime := by
  unfold lastShift at before
  rw [Nat.div_lt_iff_lt_mul positive]
  omega

/-- All eight bits are due exactly from the last shift on. -/
theorem bitsDue_eq_eight (order : start ≤ now) :
    bitsDue start bitTime now = 8 ↔ lastShift start bitTime ≤ now := by
  have most := countableBits_le start bitTime
  have early : now < lastShift start bitTime →
      (now - start) / bitTime < countableBits start bitTime := div_lt_countableBits positive order
  unfold bitsDue
  split <;> omega

/-- Never more than eight bits are due. -/
theorem bitsDue_le (order : start ≤ now) : bitsDue start bitTime now ≤ 8 := by
  have most := countableBits_le start bitTime
  have early : now < lastShift start bitTime →
      (now - start) / bitTime < countableBits start bitTime := div_lt_countableBits positive order
  unfold bitsDue
  split <;> omega

/-- Where there is room, the bits that are due are those that fit in the time gone, at most eight.
-/
theorem bitsDue_of_room (room : start + 8 * bitTime < 2 ^ 64) :
    bitsDue start bitTime now = min 8 ((now - start) / bitTime) := by
  have counted : 8 ≤ (now - start) / bitTime ↔ 8 * bitTime ≤ now - start :=
    Nat.le_div_iff_mul_le positive
  unfold bitsDue
  rw [lastShift_of_room positive room]
  split <;> omega

/-- With time more bits come to be due. -/
theorem bitsDue_mono {earlier : Nat} (started : start ≤ earlier) (order : earlier ≤ now) :
    bitsDue start bitTime earlier ≤ bitsDue start bitTime now := by
  by_cases reached : lastShift start bitTime ≤ now
  · rw [(bitsDue_eq_eight positive (by omega)).mpr reached]
    exact bitsDue_le positive started
  · unfold bitsDue
    rw [if_neg reached, if_neg (by omega)]
    exact Nat.div_le_div_right (Nat.sub_le_sub_right order start)

end

/-- Of a transfer of `byte` that was started at the time `start` so many bits have been
shifted. -/
structure Sending (start bitTime : Nat) (byte : UInt8) (shifted : Nat) (serial : SerialInterface)
    (data : UInt8) : Prop where
  left : serial.bitsLeft + shifted = 8
  paced : serial.bitTime = UInt64.ofNat bitTime
  next : serial.nextBit = UInt64.ofNat (start + (shifted + 1) * bitTime)
  shown : data.toNat = shiftedOut byte shifted

/-- A transfer that has just started has all its bits before it. -/
theorem sending_start (serial : SerialInterface) (now : UInt64) (data control : UInt8)
    (color : Bool) :
    Sending now.toNat (bitCycles control color) data 0 (serial.start now data control color)
      data where
  left := rfl
  paced := bitTimeOf_eq control color
  next := by
    show now + bitTimeOf control color = _
    rw [bitTimeOf_eq, Nat.zero_add, Nat.one_mul, UInt64.ofNat_add, UInt64.ofNat_toNat]
  shown := (shiftedOut_zero data).symm

namespace Sending

variable {start bitTime shifted : Nat} {byte data : UInt8} {serial : SerialInterface}

/-- One bit is shifted, and the next one is due a bit time later. -/
theorem shift (sending : Sending start bitTime byte shifted serial data) {bits : Nat}
    (left : serial.bitsLeft = bits + 1) :
    Sending start bitTime byte (shifted + 1)
      { serial with bitsLeft := bits, nextBit := serial.nextBit + serial.bitTime }
      ((data <<< 1) ||| 0x01) where
  left := by
    have all := sending.left
    dsimp only
    omega
  paced := sending.paced
  next := by
    have later : (shifted + 1 + 1) * bitTime = (shifted + 1) * bitTime + bitTime := Nat.succ_mul ..
    dsimp only
    rw [sending.next, sending.paced, ← UInt64.ofNat_add, later, Nat.add_assoc]
  shown := toNat_shift sending.shown

/-- The next bit is due when one bit more is due than has been shifted. If its time cannot be
counted, it starts again from zero, and the bit is due at once. -/
theorem due_iff (sending : Sending start bitTime byte shifted serial data)
    (positive : 0 < bitTime) (short : bitTime ≤ 512) (more : shifted < 8) {now : UInt64}
    (order : start ≤ now.toNat) (past : shifted ≤ bitsDue start bitTime now.toNat) :
    serial.nextBit ≤ now ↔ shifted < bitsDue start bitTime now.toNat := by
  have bound := now.toNat_lt
  have fits := le_countableBits_iff positive (Nat.lt_of_le_of_lt order bound)
    (show shifted + 1 ≤ 8 from more)
  have early := div_lt_countableBits positive order
  have shown : serial.nextBit.toNat = (start + (shifted + 1) * bitTime) % 2 ^ 64 := by
    rw [sending.next]
    exact UInt64.toNat_ofNat
  rw [UInt64.le_iff_toNat_le, shown]
  by_cases room : start + (shifted + 1) * bitTime < 2 ^ 64
  · have counted : shifted + 1 ≤ (now.toNat - start) / bitTime ↔
        (shifted + 1) * bitTime ≤ now.toNat - start := Nat.le_div_iff_mul_le positive
    have ahead : 0 < (shifted + 1) * bitTime := Nat.mul_pos (Nat.succ_pos _) positive
    rw [Nat.mod_eq_of_lt room]
    by_cases reached : lastShift start bitTime ≤ now.toNat
    · have inTime : (shifted + 1) * bitTime ≤ countableBits start bitTime * bitTime :=
        Nat.mul_le_mul_right bitTime (fits.mpr room)
      rw [(bitsDue_eq_eight positive order).mpr reached]
      unfold lastShift at reached
      omega
    · unfold bitsDue
      rw [if_neg reached]
      omega
  · have soon : (shifted + 1) * bitTime ≤ 8 * 512 := Nat.mul_le_mul more short
    have reached : lastShift start bitTime ≤ now.toNat := by
      -- Otherwise no more bits would have been shifted than can be counted.
      by_contra before
      unfold bitsDue at past
      rw [if_neg before] at past
      omega
    rw [(bitsDue_eq_eight positive order).mpr reached]
    omega

/-- All bits that are due are shifted, and the last is among them if it is due and was still to be
shifted. The induction is on the bits that are left. -/
theorem shiftDue (sending : Sending start bitTime byte shifted serial data)
    (positive : 0 < bitTime) (short : bitTime ≤ 512) {now : UInt64} (order : start ≤ now.toNat)
    (past : shifted ≤ bitsDue start bitTime now.toNat) {bits : Nat}
    (left : serial.bitsLeft = bits) :
    let next := SerialInterface.shiftDue now serial data bits
    Sending start bitTime byte (bitsDue start bitTime now.toNat) next.1 next.2.1 ∧
      (next.2.2 = true ↔ shifted < 8 ∧ bitsDue start bitTime now.toNat = 8) := by
  have atMost : bitsDue start bitTime now.toNat ≤ 8 := bitsDue_le positive order
  have all := sending.left
  induction bits generalizing serial data shifted with
  | zero =>
    have done : shifted = bitsDue start bitTime now.toNat := by omega
    rw [← done]
    exact ⟨sending, iff_of_false Bool.false_ne_true (by omega)⟩
  | succ bits ih =>
    have more : shifted < 8 := by omega
    have due := sending.due_iff positive short more order past
    unfold SerialInterface.shiftDue
    by_cases waits : shifted < bitsDue start bitTime now.toNat
    · have shifts := sending.shift left
      rw [if_pos (due.mpr waits)]
      dsimp only
      by_cases last : bits = 0
      · have reached : shifted + 1 = bitsDue start bitTime now.toNat := by omega
        rw [if_pos last, ← reached]
        exact ⟨shifts, iff_of_true rfl (by omega)⟩
      · have others := ih shifts waits rfl shifts.left
        rw [if_neg last]
        exact ⟨others.1, others.2.trans (by omega)⟩
    · have same : shifted = bitsDue start bitTime now.toNat := by omega
      rw [if_neg (due.not.mpr waits), ← same]
      exact ⟨sending, iff_of_false Bool.false_ne_true (by omega)⟩

end Sending

end SerialInterface

namespace Hardware

open SerialInterface

/-! ## The devices catch up -/

/-- Of the transfer in the hardware so many bits have been shifted. -/
def Sends (hw : Hardware) (start bitTime : Nat) (byte : UInt8) (shifted : Nat) : Prop :=
  Sending start bitTime byte shifted hw.serial (hw.stored .sb)

/-- The transfer is completed when the devices catch up with a time. -/
def completes (hw : Hardware) (now : UInt64) : Bool := (hw.serial.update now (hw.stored .sb)).2.2

/-- What becomes of the serial interface when the devices catch up. A transfer that is completed
clears the upper bit of its control register and requests the interrupt of the interface, and
nothing else does either. -/
theorem update_transfer (hw : Hardware) (now : UInt64) (speed : UInt8) :
    let outcome := hw.serial.update now (hw.stored .sb)
    let next := (hw.update now speed).1
    next.serial = outcome.1 ∧ next.stored .sb = outcome.2.1 ∧
      next.stored .sc = (if hw.completes now then hw.stored .sc &&& ~~~ 0x80 else hw.stored .sc) ∧
      (next.Requested .serial ↔ hw.Requested .serial ∨ hw.completes now = true) := by
  intro outcome next
  obtain ⟨-, -, serial, -, -, requests⟩ := hw.devices.update_parts (hw.controls speed) now
  have reached : next = hw.withDevices (hw.devices.update (hw.controls speed) now).1 :=
    congrArg Prod.fst (hw.update_eq now speed)
  rw [reached]
  refine ⟨?_, ?_, ?_, ?_⟩
  · rw [(hw.withDevices_parts _).2.2.1, serial]
    rfl
  · rw [stored_withDevices]
    rfl
  · rw [stored_withDevices]
    rfl
  · have timer : ∀ reason, requestIf reason .timer &&& Interrupt.serial.mask = 0 := by decide
    have screen : (Lcd.update hw.devices.lineStart now (hw.controls speed).speed
        (hw.controls speed).lcd (hw.controls speed).awaited hw.devices.lcd).interrupts &&&
          (0x1F &&& Interrupt.serial.mask) = 0 := Lcd.update_interrupts rfl rfl ..
    have own : requestIf (hw.completes now) .serial &&& Interrupt.serial.mask ≠ 0 ↔
        hw.completes now = true := by
      cases hw.completes now <;> decide
    have shown : (hw.devices.update (hw.controls speed) now).1.requests &&&
        Interrupt.serial.mask =
          (hw.stored .irq &&& Interrupt.serial.mask) |||
            (requestIf (hw.completes now) .serial &&& Interrupt.serial.mask) := by
      rw [requests]
      simp only [or_and_mask, timer, UInt8.or_zero, UInt8.and_assoc, screen]
      rfl
    rw [requested_iff, requested_iff, stored_withDevices, ← own]
    dsimp only
    rw [shown, ne_eq, UInt8.or_eq_zero_iff, not_and_or]

section

variable {hw : Hardware} {start bitTime shifted : Nat} {byte : UInt8}

/-- Catching up shifts the bits that have come to be due, and completes the transfer with the
eighth. -/
theorem Sends.update (sends : hw.Sends start bitTime byte shifted) (positive : 0 < bitTime)
    (short : bitTime ≤ 512) {now : UInt64} (order : start ≤ now.toNat)
    (past : shifted ≤ bitsDue start bitTime now.toNat) (speed : UInt8) :
    (hw.update now speed).1.Sends start bitTime byte (bitsDue start bitTime now.toNat) ∧
      (hw.completes now = true ↔ shifted < 8 ∧ bitsDue start bitTime now.toNat = 8) := by
  obtain ⟨serial, data, -, -⟩ := hw.update_transfer now speed
  have shifts := sends.shiftDue positive short order past rfl
  refine ⟨?_, shifts.2⟩
  unfold Sends
  rw [serial, data]
  exact shifts.1

end

/-! ## What else happens -/

/-- A store to the data register, or one that starts a transfer. -/
def Activity.Disturbs : Activity → Prop
  | .store place value => place = .io 0x01 ∨ (place = .io 0x02 ∧ value &&& 0x81 = 0x81)
  | _ => False

instance : DecidablePred Activity.Disturbs
  | .store place value =>
    inferInstanceAs (Decidable (place = .io 0x01 ∨ (place = .io 0x02 ∧ value &&& 0x81 = 0x81)))
  | .copySprites _ | .copyVideo _ | .sync _ | .update .. | .raise _ | .switchSpeed _ | .insert _
  | .install _ => inferInstanceAs (Decidable False)

/-- The time with which the devices catch up. -/
def Activity.time? : Activity → Option UInt64
  | .update now _ => some now
  | _ => none

/-- Without a start in the control there is no transfer. -/
theorem startSerial_of_silent (hw : Hardware) {control : UInt8} (silent : control &&& 0x81 ≠ 0x81) :
    hw.startSerial control = hw := by
  unfold startSerial SerialInterface.starts
  exact if_neg fun asked => silent (beq_iff_eq.mp asked)

/-- A store that does not disturb the transfer leaves its interface and its data alone. -/
theorem store_transfer (hw : Hardware) {place : Place} {value : UInt8}
    (calm : ¬ (Activity.store place value).Disturbs) :
    (hw.store place value).serial = hw.serial ∧
      (hw.store place value).stored .sb = hw.stored .sb := by
  obtain ⟨elsewhere, silent⟩ := not_or.mp calm
  refine ⟨?_, hw.stored_store_of_ne value elsewhere (by decide) (by decide)⟩
  by_cases control : place = .io 0x02
  · have unasked : value &&& 0x81 ≠ 0x81 := fun asked => silent ⟨control, asked⟩
    have started : (hw.store place value).serial = (hw.startSerial value).serial := by
      rw [control]
      rfl
    rw [started, hw.startSerial_of_silent unasked]
  · exact hw.store_serial value control

/-- Nothing but the devices that catch up shifts a bit. -/
theorem Sends.undergo {hw : Hardware} {start bitTime shifted : Nat} {byte : UInt8}
    (sends : hw.Sends start bitTime byte shifted) {activity : Activity}
    (calm : ¬ activity.Disturbs) (still : activity.time? = none) :
    (hw.undergo activity).Sends start bitTime byte shifted := by
  have alike : (hw.undergo activity).serial = hw.serial ∧
      (hw.undergo activity).stored .sb = hw.stored .sb := by
    have copied (moves : List Move) : (moves.foldl carryOut hw).serial = hw.serial ∧
        (moves.foldl carryOut hw).stored .sb = hw.stored .sb := by
      have same := hw.carryOut_bare moves
      exact ⟨congrArg (fun hw => hw.serial) same, congrArg (fun hw => hw.stored .sb) same⟩
    cases activity with
    | store place value => exact hw.store_transfer calm
    | copySprites page => exact copied _
    | copyVideo control => exact copied _
    | update now speed => contradiction
    | raise mask => exact ⟨rfl, stored_setStored hw .irq .sb _⟩
    | switchSpeed double => exact ⟨rfl, stored_setStored hw .key1 .sb _⟩
    | sync | insert | install => exact ⟨rfl, rfl⟩
  unfold Sends
  rw [alike.1, alike.2]
  exact sends

/-! ## The whole transfer -/

/-- The times with which the devices catch up. -/
def updateTimes (activities : List Activity) : List UInt64 := activities.filterMap Activity.time?

/-- The times at which a transfer is completed. -/
def completions (hw : Hardware) : List Activity → List UInt64
  | [] => []
  | activity :: activities =>
    (activity.time?.filter hw.completes).toList ++ (hw.undergo activity).completions activities

/-- The time with which the devices have caught up last, if they have. -/
def latest (last : Option UInt64) (activities : List Activity) : Option UInt64 :=
  (updateTimes activities).getLast?.or last

/-- The bits that have been shifted if the devices have caught up with some time last, and none if
they have not. -/
def bitsShifted (start bitTime : Nat) (last : Option UInt64) : Nat :=
  last.elim 0 fun now => bitsDue start bitTime now.toNat

/-- Since the time `began` nothing has disturbed the transfer and nothing does, and the devices
catch up with one time after another. -/
structure Undisturbed (began : UInt64) (last : Option UInt64) (activities : List Activity) :
    Prop where
  calm : ∀ activity ∈ activities, ¬ activity.Disturbs
  ordered : (began :: (last.toList ++ updateTimes activities)).Pairwise (· ≤ ·)

section

variable {began : UInt64} {last : Option UInt64} {activity : Activity}
  {activities : List Activity}

/-- The times of updates, one activity after the other. -/
theorem updateTimes_cons (activity : Activity) (activities : List Activity) :
    updateTimes (activity :: activities) = activity.time?.toList ++ updateTimes activities := by
  unfold updateTimes
  rw [List.filterMap_cons]
  cases activity.time? <;> rfl

/-- The latest update, one activity after the other. -/
theorem latest_cons (last : Option UInt64) (activity : Activity) (activities : List Activity) :
    latest last (activity :: activities) = latest (activity.time?.or last) activities := by
  have first : activity.time?.toList.getLast? = activity.time? := by
    cases activity.time? <;> rfl
  unfold latest
  rw [updateTimes_cons, List.getLast?_append, first, Option.or_assoc]

/-- The times with which the devices have caught up so far are not past the next one. -/
theorem Undisturbed.timely (free : Undisturbed began last (activity :: activities)) {now : UInt64}
    (time : activity.time? = some now) :
    began.toNat ≤ now.toNat ∧
      ∀ earlier ∈ last, began.toNat ≤ earlier.toNat ∧ earlier.toNat ≤ now.toNat := by
  obtain ⟨begins, ordered⟩ := List.pairwise_cons.mp free.ordered
  have here : now ∈ updateTimes (activity :: activities) := by
    rw [updateTimes_cons, time]
    exact List.mem_cons_self
  obtain ⟨-, -, between⟩ := List.pairwise_append.mp ordered
  refine ⟨UInt64.le_iff_toNat_le.mp (begins now (List.mem_append_right _ here)), ?_⟩
  intro earlier known
  have listed : earlier ∈ last.toList := Option.mem_toList.mpr known
  exact ⟨UInt64.le_iff_toNat_le.mp (begins earlier (List.mem_append_left _ listed)),
    UInt64.le_iff_toNat_le.mp (between earlier listed now here)⟩

/-- After an activity that does not disturb the transfer the others do not either. -/
theorem Undisturbed.rest (free : Undisturbed began last (activity :: activities)) :
    Undisturbed began (activity.time?.or last) activities where
  calm := (List.forall_mem_cons.mp free.calm).2
  ordered := by
    have ordered := free.ordered
    rw [updateTimes_cons] at ordered
    cases time : activity.time? with
    | none =>
      rw [time] at ordered
      exact ordered
    | some now =>
      rw [time] at ordered
      exact ordered.sublist ((List.sublist_append_right _ _).cons_cons began)

end

section

variable {hw : Hardware} {began : UInt64} {bitTime : Nat} {byte : UInt8} {last : Option UInt64}
  {activity : Activity} {activities : List Activity} (positive : 0 < bitTime)
include positive

/-- Bits are missing exactly as long as every update came before the last shift. -/
theorem bitsShifted_lt_iff (started : ∀ now ∈ last, began.toNat ≤ now.toNat) :
    bitsShifted began.toNat bitTime last < 8 ↔
      ∀ now ∈ last, now.toNat < lastShift began.toNat bitTime := by
  cases last with
  | none => simp [bitsShifted]
  | some now =>
    have order : began.toNat ≤ now.toNat := started now rfl
    have all := bitsDue_eq_eight positive order
    have most := bitsDue_le positive order
    simp only [bitsShifted, Option.elim_some, Option.mem_some_iff, forall_eq']
    omega

/-- No more bits have been shifted than are due with the next time. -/
theorem Undisturbed.bitsShifted_le (free : Undisturbed began last (activity :: activities))
    {now : UInt64} (time : activity.time? = some now) :
    bitsShifted began.toNat bitTime last ≤ bitsDue began.toNat bitTime now.toNat := by
  cases last with
  | none => exact Nat.zero_le _
  | some earlier =>
    obtain ⟨started, inOrder⟩ := (free.timely time).2 earlier rfl
    exact bitsDue_mono positive started inOrder

/-- An activity after which the devices have caught up with a time has shifted the bits that are
due then, and the last bit if it was still to be shifted. -/
theorem Sends.step (short : bitTime ≤ 512)
    (sends : hw.Sends began.toNat bitTime byte (bitsShifted began.toNat bitTime last))
    (free : Undisturbed began last (activity :: activities)) :
    (hw.undergo activity).Sends began.toNat bitTime byte
        (bitsShifted began.toNat bitTime (activity.time?.or last)) ∧
      ∀ now ∈ activity.time?, hw.completes now = true ↔
        bitsShifted began.toNat bitTime last < 8 ∧ lastShift began.toNat bitTime ≤ now.toNat := by
  have calm := (List.forall_mem_cons.mp free.calm).1
  cases time : activity.time? with
  | none => exact ⟨sends.undergo calm time, by simp⟩
  | some now =>
    obtain ⟨speed, rfl⟩ : ∃ speed, activity = .update now speed := by
      cases activity <;> cases time
      exact ⟨_, rfl⟩
    have order := (free.timely time).1
    have past := free.bitsShifted_le positive time
    obtain ⟨next, completed⟩ := sends.update positive short order past speed
    refine ⟨next, ?_⟩
    intro _ same
    obtain rfl := Option.mem_some_iff.mp same
    rw [completed, bitsDue_eq_eight positive order]

/-- After any activities the bits have been shifted that were due when the devices caught up
last. -/
theorem Sends.run (short : bitTime ≤ 512)
    (sends : hw.Sends began.toNat bitTime byte (bitsShifted began.toNat bitTime last))
    (free : Undisturbed began last activities) :
    (activities.foldl Hardware.undergo hw).Sends began.toNat bitTime byte
      (bitsShifted began.toNat bitTime (latest last activities)) := by
  induction activities generalizing hw last with
  | nil => exact sends
  | cons activity activities ih =>
    rw [latest_cons]
    exact ih (sends.step positive short free).1 free.rest

/-- The transfer is completed at the first of the times by which the last bit is due, unless that
has happened before. -/
theorem Sends.completions (short : bitTime ≤ 512)
    (sends : hw.Sends began.toNat bitTime byte (bitsShifted began.toNat bitTime last))
    (free : Undisturbed began last activities) :
    hw.completions activities =
      if bitsShifted began.toNat bitTime last < 8 then
        ((updateTimes activities).find? fun now =>
          lastShift began.toNat bitTime ≤ now.toNat).toList
      else [] := by
  induction activities generalizing hw last with
  | nil => simp [Hardware.completions, updateTimes]
  | cons activity activities ih =>
    obtain ⟨next, completed⟩ := sends.step positive short free
    have others := ih next free.rest
    cases time : activity.time? with
    | none =>
      rw [time] at others
      rw [Hardware.completions, updateTimes_cons, time, others]
      rfl
    | some now =>
      have reached := completed now time
      have past := free.bitsShifted_le positive time
      have all := bitsDue_eq_eight positive (free.timely time).1
      have most := bitsDue_le positive (free.timely time).1
      rw [time] at others
      rw [Hardware.completions, updateTimes_cons, time, others]
      show _ ++ (if bitsDue began.toNat bitTime now.toNat < 8 then _ else _) = _
      -- If the last bit is due by now, no later update completes the transfer; otherwise this one
      -- does not.
      by_cases due : lastShift began.toNat bitTime ≤ now.toNat
      · rw [if_neg (show ¬ bitsDue began.toNat bitTime now.toNat < 8 by omega)]
        by_cases left : bitsShifted began.toNat bitTime last < 8
        · simp [due, left, reached.mpr ⟨left, due⟩]
        · have never : hw.completes now = false :=
            Bool.eq_false_iff.mpr fun completes => left (reached.mp completes).1
          simp [left, never]
      · have never : hw.completes now = false :=
          Bool.eq_false_iff.mpr fun completes => due (reached.mp completes).2
        have still : bitsDue began.toNat bitTime now.toNat < 8 := by omega
        have left : bitsShifted began.toNat bitTime last < 8 := by omega
        simp [due, still, left, never]

/-- A bit is left if the devices have not caught up with the time of the last shift yet. -/
theorem Undisturbed.bitsShifted_latest (free : Undisturbed began none activities) :
    bitsShifted began.toNat bitTime (latest none activities) < 8 ↔
      ∀ time ∈ updateTimes activities, time.toNat < lastShift began.toNat bitTime := by
  obtain ⟨begins, ordered⟩ := List.pairwise_cons.mp free.ordered
  have listed : ∀ now ∈ latest none activities, now ∈ updateTimes activities := by
    intro now known
    rw [latest, Option.or_none] at known
    exact List.mem_of_getLast? known
  have started : ∀ now ∈ latest none activities, began.toNat ≤ now.toNat := fun now known =>
    UInt64.le_iff_toNat_le.mp (begins now (listed now known))
  rw [bitsShifted_lt_iff positive started]
  constructor
  · intro early time reached
    have last : latest none activities =
        some ((updateTimes activities).getLast (List.ne_nil_of_mem reached)) := by
      rw [latest, Option.or_none, List.getLast?_eq_some_getLast]
    have order := UInt64.le_iff_toNat_le.mp (ordered.rel_getLast reached)
    exact Nat.lt_of_le_of_lt order (early _ last)
  · exact fun early now known => early now (listed now known)

end

section

variable {began : UInt64} {last : Option UInt64} {earlier later : List Activity}

/-- Nothing disturbs the transfer up to some activity. -/
theorem Undisturbed.take (free : Undisturbed began last (earlier ++ later)) :
    Undisturbed began last earlier where
  calm := fun activity here => free.calm activity (List.mem_append_left _ here)
  ordered := by
    have times : updateTimes (earlier ++ later) = updateTimes earlier ++ updateTimes later :=
      List.filterMap_append
    have ordered := free.ordered
    rw [times, ← List.append_assoc] at ordered
    exact ordered.sublist ((List.sublist_append_left _ _).cons_cons began)

/-- Nothing disturbs the transfer from some activity on. -/
theorem Undisturbed.drop (free : Undisturbed began last (earlier ++ later)) :
    Undisturbed began (latest last earlier) later := by
  induction earlier generalizing last with
  | nil => exact free
  | cons activity earlier ih =>
    rw [latest_cons]
    exact ih free.rest

end

/-- A store that starts a transfer leaves all eight bits to be shifted. -/
theorem sends_started (hw : Hardware) {control : UInt8} (starts : control &&& 0x81 = 0x81) :
    (hw.store (hw.resolve 0xFF02) control).Sends hw.now.toNat (bitCycles control hw.color)
      (hw.stored .sb) 0 := by
  have serial : (hw.store (hw.resolve 0xFF02) control).serial =
      hw.serial.start hw.now (hw.stored .sb) control hw.color := by
    have asked : SerialInterface.starts control = true := beq_iff_eq.mpr starts
    have started : (hw.store (hw.resolve 0xFF02) control).serial =
        (hw.startSerial control).serial := rfl
    rw [started, startSerial, if_pos asked]
  have data : (hw.store (hw.resolve 0xFF02) control).stored .sb = hw.stored .sb :=
    hw.stored_store_of_ne control (show Place.io 0x02 ≠ .io 0x01 by decide) (by decide) (by decide)
  unfold Sends
  rw [serial, data]
  exact sending_start ..

/-- A transfer that is started at some time is completed by the first of the updates from the time
on at which its last bit is due, and by no other, whatever else happens to the hardware in the
meantime that does not disturb it. After each update the data register has been shifted once for
each bit time that has gone by, and eight times from the time of the last bit on; bits are left if
it has not been shifted eight times. The update that completes the transfer clears the upper bit of
the control register and requests the interrupt of the interface. The last bit is due eight bit
times after the start, unless that time cannot be counted; then it is shifted together with the
last bit that is due at a time that can. -/
theorem transfer_completes_once (hw : Hardware) {control : UInt8}
    (starts : control &&& 0x81 = 0x81) {activities : List Activity}
    (calm : ∀ activity ∈ activities, ¬ activity.Disturbs)
    (ordered : (hw.now :: updateTimes activities).Pairwise (· ≤ ·)) :
    let started := hw.store (hw.resolve 0xFF02) control
    let bitTime := bitCycles control hw.color
    let due := hw.now.toNat + min 8 ((2 ^ 64 - 1 - hw.now.toNat) / bitTime) * bitTime
    (hw.now.toNat + 8 * bitTime < 2 ^ 64 → due = hw.now.toNat + 8 * bitTime) ∧
      started.completions activities =
        ((updateTimes activities).find? fun now => due ≤ now.toNat).toList ∧
      ∀ earlier now speed later, activities = earlier ++ .update now speed :: later →
        let before := earlier.foldl undergo started
        let next := before.undergo (.update now speed)
        let bits := if due ≤ now.toNat then 8 else (now.toNat - hw.now.toNat) / bitTime
        (hw.now.toNat + 8 * bitTime < 2 ^ 64 →
            bits = min 8 ((now.toNat - hw.now.toNat) / bitTime)) ∧
          (next.stored .sb).toNat = ((hw.stored .sb).toNat <<< bits ||| (2 ^ bits - 1)) % 256 ∧
          (next.serial.transferring = true ↔ bits < 8) ∧
          (before.completes now = true ↔
            due ≤ now.toNat ∧ ∀ time ∈ updateTimes earlier, time.toNat < due) ∧
          next.stored .sc =
            (if before.completes now then before.stored .sc &&& ~~~ 0x80
              else before.stored .sc) ∧
          (next.Requested .serial ↔ before.Requested .serial ∨ before.completes now = true) := by
  intro started bitTime due
  have positive : 0 < bitTime := bitCycles_pos control hw.color
  have short : bitTime ≤ 512 := bitCycles_le control hw.color
  have free : Undisturbed hw.now none activities := ⟨calm, ordered⟩
  have sends : started.Sends hw.now.toNat bitTime (hw.stored .sb)
      (bitsShifted hw.now.toNat bitTime none) := hw.sends_started starts
  refine ⟨lastShift_of_room positive, ?_, ?_⟩
  · exact sends.completions positive short free
  · rintro earlier now speed later rfl before next bits
    have reached := sends.run positive short free.take
    obtain ⟨shifted, completed⟩ := reached.step positive short free.drop
    obtain ⟨-, -, control, requested⟩ := before.update_transfer now speed
    refine ⟨fun room => bitsDue_of_room positive room, shifted.shown, ?_, ?_, control, requested⟩
    · have left : next.serial.bitsLeft + bits = 8 := shifted.left
      rw [SerialInterface.transferring, bne_iff_ne]
      omega
    · rw [completed now rfl, free.take.bitsShifted_latest positive, and_comm]
      rfl

/-- A color machine that uses its fast clock. The devices catch up when no bit is due, when six
are, when the last one is, and once more; in between the screen is switched on, time goes by and
the control register is overwritten. -/
theorem transfer_completes_once_in_time :
    let hw : Hardware :=
      { (Hardware.assemble .empty #[]).setStored .sb 0x50 with now := 1000, color := true }
    let activities := [.update 1015 1, .store (.io 0x40) 0x91, .sync 1100, .update 1100 2,
      .update 1128 2, .store (.io 0x02) 0x00, .update 5000 2]
    (0x83 : UInt8) &&& 0x81 = 0x81 ∧ (∀ activity ∈ activities, ¬ activity.Disturbs) ∧
      (hw.now :: updateTimes activities).Pairwise (· ≤ ·) ∧
      (hw.store (hw.resolve 0xFF02) 0x83).completions activities = [1128] := by
  intro hw activities
  have starts : (0x83 : UInt8) &&& 0x81 = 0x81 := rfl
  have calm : ∀ activity ∈ activities, ¬ activity.Disturbs := by decide
  have ordered : (hw.now :: updateTimes activities).Pairwise (· ≤ ·) := by decide
  obtain ⟨-, once, -⟩ := transfer_completes_once hw starts calm ordered
  exact ⟨starts, calm, ordered, once.trans (by decide)⟩

/-- A transfer that is started a hundred cycles before the end of the count is completed in the
same cycle. No bit time has gone by then, so the data register should still show what it did. And
a transfer is not completed at all if the devices do not catch up late enough. -/
theorem transfer_not_always_in_time :
    let idle : Hardware := (Hardware.assemble .empty #[]).setStored .sb 0x50
    let late : Hardware := { idle with now := 0xFFFFFFFFFFFFFF9C }
    let next := (late.store (late.resolve 0xFF02) 0x81).undergo (.update late.now 1)
    let bits := min 8 ((late.now.toNat - late.now.toNat) / bitCycles 0x81 late.color)
    (late.store (late.resolve 0xFF02) 0x81).completions [.update late.now 1] = [late.now] ∧
      bits = 0 ∧ ((late.stored .sb).toNat <<< bits ||| (2 ^ bits - 1)) % 256 = 0x50 ∧
      next.stored .sb = 0xFF ∧ next.serial.transferring = false ∧
      (idle.store (idle.resolve 0xFF02) 0x81).completions [.update 4 1] = [] := by
  intro idle late next bits
  have starts : (0x81 : UInt8) &&& 0x81 = 0x81 := rfl
  have alone (now : UInt64) : ∀ activity ∈ [Activity.update now 1], ¬ activity.Disturbs := by
    simp [Activity.Disturbs]
  have sends : (late.store (late.resolve 0xFF02) 0x81).Sends late.now.toNat 512 0x50
      (bitsShifted late.now.toNat 512 none) := late.sends_started starts
  have free : Undisturbed late.now none [.update late.now 1] := ⟨alone _, by decide⟩
  have all : bitsDue late.now.toNat 512 late.now.toNat = 8 := by decide
  obtain ⟨shifted, -⟩ := sends.step (by decide) (by decide) free
  have gone : next.Sends late.now.toNat 512 0x50 8 := all ▸ shifted
  have sendsIdle : (idle.store (idle.resolve 0xFF02) 0x81).Sends (0 : UInt64).toNat 512 0x50
      (bitsShifted (0 : UInt64).toNat 512 none) := idle.sends_started starts
  have freeIdle : Undisturbed 0 none [.update 4 1] := ⟨alone _, by decide⟩
  refine ⟨?_, by decide, by decide, ?_, ?_, ?_⟩
  · exact (sends.completions (by decide) (by decide) free).trans (by decide)
  · exact UInt8.toNat_inj.mp (gone.shown.trans (by decide))
  · have left : next.serial.bitsLeft + 8 = 8 := gone.left
    rw [SerialInterface.transferring, bne_eq_false_iff_eq]
    omega
  · exact (sendsIdle.completions (by decide) (by decide) freeIdle).trans (by decide)

end Hardware

end Handheld
