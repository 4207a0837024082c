import Mathlib.Algebra.Group.Nat.Defs
import Handheld.Proofs.Interrupts

/-!
# What a processor does to its surroundings

Whatever a processor at work does is put together from few things: it computes in its
registers, it stores a byte, it lets time pass, it takes back an interrupt request, it
changes its speed. `Proceeds s cycles s'` says that `s'` comes from `s` in this way, and
how many cycles it took. The cycles are counted as a natural number, so that nothing
is lost when the counter of the processor wraps.

What holds of every one of the few things holds of all of them, by one induction. A function
is shown to go on from wherever some other one has arrived, so that a sequence of them is a
chain of these facts.
-/

set_option autoImplicit false

namespace Handheld

/-- A counter with room shows what is added to it. -/
theorem toNat_add_cycles {counter : UInt64} {n : Nat} (room : counter.toNat + n < 2 ^ 64) :
    (counter + UInt64.ofNat n).toNat = counter.toNat + n := by
  have fits : n < 2 ^ 64 := by omega
  rw [UInt64.toNat_add, UInt64.toNat_ofNat_of_lt' fits]
  exact Nat.mod_eq_of_lt room

/-- What a branch under a condition adds to the cost of its operation when it is taken. The cost
of a branch that is always taken covers it already. -/
def Condition.extra (condition : Condition) (cycles : Nat) : Nat :=
  if condition = .always then 0 else cycles

/-- What an action adds to the cost of its operation when its branch is taken. -/
def Action.extra : Action → Nat
  | .jumpRelative condition _ | .jump condition _ => condition.extra 4
  | .call condition _ | .ret condition => condition.extra 12
  | _ => 0

/-- A branch costs extra what it costs, or nothing. -/
theorem Condition.extra_le (condition : Condition) (cycles : Nat) :
    condition.extra cycles ≤ cycles := by
  unfold Condition.extra
  split
  · exact Nat.zero_le cycles
  · exact Nat.le_refl cycles

/-- An action costs at most twelve cycles extra. -/
theorem Action.extra_le (action : Action) : action.extra ≤ 12 := by
  unfold Action.extra
  split
  · exact Nat.le_trans (Condition.extra_le _ 4) (by decide)
  · exact Nat.le_trans (Condition.extra_le _ 4) (by decide)
  · exact Condition.extra_le _ 12
  · exact Condition.extra_le _ 12
  · exact Nat.zero_le 12

/-- What the surroundings of a processor depend on: its cycle counter, its speed, and
whether it runs in color mode. -/
structure Cpu.Pace where
  cycles : UInt64
  speed : UInt8
  color : Bool

/-- The counter, the speed and the mode of a processor. -/
def Cpu.pace (cpu : Cpu) : Cpu.Pace := ⟨cpu.cycles, cpu.speed, cpu.color⟩

namespace System

variable {β : Type} [AddressSpace β]

/-- What a processor at work can have come to, and in how many cycles. -/
inductive Proceeds : System β → Nat → System β → Prop where
  /-- It computes, looks up, or keeps its books. -/
  | think {s s' : System β} (pace : s'.cpu.pace = s.cpu.pace) (bus : s'.bus = s.bus) :
    Proceeds s 0 s'
  | store {s s' : System β} (place : Place) (value : UInt8) (pace : s'.cpu.pace = s.cpu.pace)
    (bus : s'.bus = AddressSpace.store s.bus place value) : Proceeds s 0 s'
  /-- Time passes, and the devices are not told. -/
  | spend {s s' : System β} (cycles : UInt64)
    (pace : s'.cpu.pace = { s.cpu.pace with cycles := s.cpu.cycles + cycles })
    (bus : s'.bus = s.bus) : Proceeds s cycles.toNat s'
  /-- Time passes, and the devices are told. -/
  | tick {s s' : System β} (cycles : UInt64)
    (pace : s'.cpu.pace = { s.cpu.pace with cycles := s.cpu.cycles + cycles })
    (bus : s'.bus = AddressSpace.sync s.bus (s.cpu.cycles + cycles)) :
    Proceeds s cycles.toNat s'
  | takeBack {s s' : System β} (source : Interrupt) (pace : s'.cpu.pace = s.cpu.pace)
    (bus : s'.bus = AddressSpace.setInterruptFlag s.bus
      (AddressSpace.interruptFlag s.bus &&& ~~~ source.mask)) : Proceeds s 0 s'
  | switch {s s' : System β} (speed : UInt8) (other : speed = if s.cpu.speed = 1 then 2 else 1)
    (pace : s'.cpu.pace = { s.cpu.pace with speed })
    (bus : s'.bus = AddressSpace.setDoubleSpeed s.bus (speed == 2)) : Proceeds s 0 s'
  | trans {s t u : System β} {m n : Nat} (first : Proceeds s m t) (second : Proceeds t n u) :
    Proceeds s (m + n) u

namespace Proceeds

variable {s t : System β} {n : Nat}

/-- A state proceeds to itself in no cycles. -/
theorem refl (s : System β) : Proceeds s 0 s := .think rfl rfl

/-- A state may proceed further without cycles. -/
theorem next (h : Proceeds s n t) {u : System β} (step : Proceeds t 0 u) : Proceeds s n u :=
  show Proceeds s (n + 0) u from h.trans step

/-! ## Through the functions that touch bytes -/

/-- Spending cycles proceeds by them. -/
theorem spendCycles (h : Proceeds s n t) (cycles : UInt64) :
    Proceeds s (n + cycles.toNat) (t.spend cycles) :=
  h.trans (.spend cycles rfl rfl)

/-- What changes neither processor nor address space takes no cycles. -/
theorem booked (h : Proceeds s n t) {u : System β} (cpu : u.cpu = t.cpu) (bus : u.bus = t.bus) :
    Proceeds s n u :=
  h.next (.think (congrArg Cpu.pace cpu) bus)

/-- Marking a use takes no cycles. -/
theorem mark (h : Proceeds s n t) (place : Place) (usage : Usage) :
    Proceeds s n (t.mark place usage) :=
  h.booked (t.mark_cpu place usage) (t.mark_bus place usage)

/-- Marking the use of an origin takes no cycles. -/
theorem markOrigin (h : Proceeds s n t) (place : Place) (usage : Usage) :
    Proceeds s n (t.markOrigin place usage) :=
  h.booked (t.markOrigin_cpu place usage) (t.markOrigin_bus place usage)

/-- A store takes no cycles. -/
theorem storeAt (h : Proceeds s n t) (place : Place) (value : UInt8) :
    Proceeds s n (t.store place value) := by
  cases place with
  | register r => exact h.next (.think rfl rfl)
  | _ =>
    rw [t.store_place (by rintro r ⟨⟩)]
    exact h.next (.store _ value rfl rfl)

/-- A write takes no cycles. -/
theorem write (h : Proceeds s n t) (place : Place) (value : UInt8) :
    Proceeds s n (t.write place value) :=
  (h.storeAt place value).booked (clearOrigin_cpu _ _) (clearOrigin_bus _ _)

/-- A move takes no cycles. -/
theorem move (h : Proceeds s n t) (destination source : Place) :
    Proceeds s n (t.move destination source) :=
  (h.storeAt destination (t.load source)).booked rfl rfl

/-! ## What is kept -/

/-- The counter shows the cycles that have gone by, as far as it reaches. -/
theorem cycles_eq {s' : System β} (h : Proceeds s n s') :
    s'.cpu.cycles = s.cpu.cycles + UInt64.ofNat n := by
  induction h with
  | think pace | store _ _ pace | takeBack _ pace | switch _ _ pace =>
    have same := congrArg Cpu.Pace.cycles pace
    exact same.trans (UInt64.add_zero _).symm
  | spend cycles pace | tick cycles pace =>
    have later := congrArg Cpu.Pace.cycles pace
    rw [UInt64.ofNat_toNat]
    exact later
  | @trans s t u m n _ _ first second =>
    rw [second, first, UInt64.add_assoc, ← UInt64.ofNat_add]

/-- Without a wrap the counter goes up by the cycles of the work. -/
theorem toNat_cycles {s' : System β} (h : Proceeds s n s')
    (room : s.cpu.cycles.toNat + n < 2 ^ 64) :
    s'.cpu.cycles.toNat = s.cpu.cycles.toNat + n := by
  rw [h.cycles_eq]
  exact toNat_add_cycles room

/-- A counter that has not gone down has not wrapped. -/
theorem room_of_le {s' : System β} (h : Proceeds s n s') (short : n < 2 ^ 64)
    (up : s.cpu.cycles ≤ s'.cpu.cycles) : s.cpu.cycles.toNat + n < 2 ^ 64 := by
  have ordered := UInt64.le_iff_toNat_le.mp up
  rw [h.cycles_eq, UInt64.toNat_add, UInt64.toNat_ofNat_of_lt' short] at ordered
  have := s.cpu.cycles.toNat_lt
  omega

/-- Time does not stand still, and it does not go back while the counter has room. -/
theorem le_of_room {s' : System β} (h : Proceeds s n s')
    (room : s.cpu.cycles.toNat + n < 2 ^ 64) : s.cpu.cycles ≤ s'.cpu.cycles := by
  rw [UInt64.le_iff_toNat_le, h.toNat_cycles room]
  exact Nat.le_add_right _ _

/-- No work changes the mode of the processor. -/
theorem color_eq {s' : System β} (h : Proceeds s n s') : s'.cpu.color = s.cpu.color := by
  induction h with
  | think pace | store _ _ pace | spend _ pace | tick _ pace | takeBack _ pace
  | switch _ _ pace => exact congrArg Cpu.Pace.color pace
  | trans _ _ first second => rw [second, first]

/-- The speed stays single or double. -/
theorem speed_cases {s' : System β} (h : Proceeds s n s')
    (speed : s.cpu.speed = 1 ∨ s.cpu.speed = 2) : s'.cpu.speed = 1 ∨ s'.cpu.speed = 2 := by
  induction h with
  | think pace | store _ _ pace | spend _ pace | tick _ pace | takeBack _ pace =>
    have same := congrArg Cpu.Pace.speed pace
    exact speed.imp same.trans same.trans
  | switch other choice pace =>
    have switched := congrArg Cpu.Pace.speed pace
    have two : other = 1 ∨ other = 2 := by
      rw [choice]
      split
      · exact .inr rfl
      · exact .inl rfl
    exact two.imp switched.trans switched.trans
  | trans _ _ first second => exact second (first speed)

end Proceeds

end System

end Handheld
