import Handheld.Proofs.Hardware.CatchUp
import Handheld.Proofs.Hardware.Stores
import Handheld.Proofs.Invariance

/-!
# Mode and speed are told alike everywhere

The mode of a machine is kept by its processor and by its hardware, and both took it
from the cartridge. The speed is kept by the processor, and the program reads it in bit 7
of a device register. All copies agree at any time: a store to the register keeps the
bit, only a change of speed writes it, and whoever puts in a cartridge tells the
processor.
-/

set_option autoImplicit false

namespace Handheld

/-- The copies of the mode and of the speed agree. -/
structure SameMode (cpu : Cpu) (bus : Hardware) : Prop where
  processor : cpu.color = bus.color
  cartridge : bus.color = bus.cartridge.header.color
  speed : cpu.speed = 1 ∨ cpu.speed = 2
  told : bus.stored .key1 &&& 0x80 ≠ 0 ↔ cpu.speed = 2

namespace SameMode

variable {cpu next : Cpu} {bus hw : Hardware}

/-- The speed bit of the speed register cannot be written. -/
theorem registerKeeps_speed (stored value : UInt8) :
    Hardware.registerKeeps .key1 stored value &&& 0x80 = stored &&& 0x80 := by
  show ((stored &&& 0x80) ||| (value &&& 0x01)) &&& 0x80 = _
  have others : value &&& 0x01 &&& 0x80 = 0 := (UInt8.and_assoc ..).trans UInt8.and_zero
  rw [or_and_mask, others, UInt8.or_zero, UInt8.and_assoc, UInt8.and_self]

/-- What matters is the mode, the speed, and what is told of them. -/
theorem of_same (h : SameMode cpu bus) (color : next.color = cpu.color)
    (speed : next.speed = cpu.speed) (mode : hw.color = bus.color)
    (header : hw.cartridge.header = bus.cartridge.header)
    (told : hw.stored .key1 &&& 0x80 = bus.stored .key1 &&& 0x80) : SameMode next hw where
  processor := by
    rw [color, mode]
    exact h.processor
  cartridge := by
    rw [mode, header]
    exact h.cartridge
  speed := by
    rw [speed]
    exact h.speed
  told := by
    rw [told, speed]
    exact h.told

/-- A store keeps mode and speed told. -/
theorem written (h : SameMode cpu bus) (color : next.color = cpu.color)
    (speed : next.speed = cpu.speed) (store : bus.Written hw) : SameMode next hw := by
  refine h.of_same color speed store.color store.header ?_
  obtain same | ⟨value, kept⟩ := store.stored .key1
  · rw [same]
  · rw [kept, registerKeeps_speed]

/-- A change of speed keeps mode and speed told. -/
theorem switched (h : SameMode cpu bus) (color : next.color = cpu.color)
    (other : next.speed = if cpu.speed = 1 then 2 else 1) :
    SameMode next (bus.setStored .key1 (if next.speed == 2 then 0x80 else 0x00)) where
  processor := color.trans h.processor
  cartridge := h.cartridge
  speed := by
    rw [other]
    split
    · exact .inr rfl
    · exact .inl rfl
  told := by
    rw [Hardware.stored_setStored, if_pos rfl]
    by_cases double : next.speed = 2
    · simp [double]
    · simp [double]

end SameMode

/-- Whatever a processor does leaves the copies in agreement. -/
theorem System.Proceeds.sameMode {s s' : System Hardware} {n : Nat} (h : Proceeds s n s')
    (before : SameMode s.cpu s.bus) : SameMode s'.cpu s'.bus := by
  have colors := h.color_eq
  induction h with
  | @think s t pace bus | @spend s t _ pace bus | @tick s t _ pace bus =>
    have speed : t.cpu.speed = s.cpu.speed := congrArg Cpu.Pace.speed pace
    rw [bus]
    exact before.of_same colors speed rfl rfl rfl
  | @store s t place value pace bus =>
    have speed : t.cpu.speed = s.cpu.speed := congrArg Cpu.Pace.speed pace
    rw [bus]
    exact before.written colors speed (s.bus.written_store place value)
  | @takeBack s t source pace bus =>
    have speed : t.cpu.speed = s.cpu.speed := congrArg Cpu.Pace.speed pace
    rw [bus]
    refine before.of_same colors speed rfl rfl ?_
    show (s.bus.setStored .irq _).stored .key1 &&& 0x80 = _
    rw [Hardware.stored_setStored]
    rfl
  | @switch s t speed other pace bus =>
    have switched : t.cpu.speed = speed := congrArg Cpu.Pace.speed pace
    subst switched
    rw [bus]
    exact before.switched colors other
  | trans first second ihFirst ihSecond =>
    exact ihSecond (ihFirst before first.color_eq) second.color_eq

namespace Machine

/-- In every session, mode and speed are the same to processor and hardware. -/
theorem invariant_sameMode : Invariant (fun _ _ => True) SameMode where
  work := by
    intro s s' n proceeds _ _ before
    exact proceeds.sameMode before
  catchUp := by
    intro cpu bus before
    have update := bus.caughtUp_update cpu.cycles cpu.speed
    have told := update.stored .key1 rfl
    exact before.of_same rfl rfl update.color (by rw [update.cartridge]) (by rw [told])
  hear := by
    intro cpu bus before
    exact before.of_same rfl rfl rfl rfl rfl
  raise := by
    intro cpu bus before mask halted
    refine before.of_same rfl rfl rfl rfl ?_
    show (bus.setStored .irq _).stored .key1 &&& 0x80 = _
    rw [Hardware.stored_setStored]
    rfl
  insert := by
    intro cpu bus before cartridge
    exact ⟨rfl, rfl, before.speed, before.told⟩
  install := by
    intro cpu bus before controller
    exact ⟨before.processor, before.cartridge, before.speed, before.told⟩
  reset := by
    intro m
    have single : (0 : UInt8) &&& 0x80 ≠ 0 ↔ (1 : UInt8) = 2 := by decide
    obtain ⟨cpu, bus⟩ | ⟨cpu, bus⟩ := m.reset_outcome
    · rw [cpu, bus]
      refine ⟨rfl, rfl, .inl rfl, ?_⟩
      rw [Hardware.stored_powerCycle]
      exact single
    · rw [cpu, bus]
      refine ⟨rfl, rfl, .inl rfl, ?_⟩
      rw [Hardware.stored_postBoot]
      exact single

/-- After any session that begins with a reset, processor, hardware and cartridge tell the
same mode, the speed is one of two, and the program is told which. -/
theorem session_tells_mode_alike (m : Machine) (requests : List Request) :
    let last := (m.reset.session requests).1
    last.cpu.color = last.bus.color ∧ last.bus.color = last.bus.cartridge.header.color ∧
      (last.cpu.speed = 1 ∨ last.cpu.speed = 2) ∧
      (last.bus.stored .key1 &&& 0x80 ≠ 0 ↔ last.cpu.speed = 2) := by
  intro last
  have along := along_of_always (fun _ _ => trivial) m.reset requests
  have same : SameMode last.cpu last.bus :=
    invariant_sameMode.session along (invariant_sameMode.reset m)
  exact ⟨same.processor, same.cartridge, same.speed, same.told⟩

end Machine

end Handheld
