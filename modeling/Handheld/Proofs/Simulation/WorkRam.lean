import Handheld.Proofs.FlatMemory
import Handheld.Proofs.Hardware.Memory
import Handheld.Proofs.Simulation.Processor

/-!
# Work RAM in the place of flat memory

The addresses from C000 to DFFF stand for work RAM, the upper half for one of its banks. As
long as the mapping stays what it was, work RAM keeps bytes as flat memory does: a byte stored
is read back at its address and nothing else shows there. So the hardware simulates flat
memory on these addresses, whatever else is in it, and a processor that stays there does the
same in both.
-/

set_option autoImplicit false

namespace Handheld

/-- The addresses of work RAM; its echo is not counted in. -/
def InWorkRam (address : UInt16) : Prop := 0xC000 ≤ address ∧ address < 0xE000

instance (address : UInt16) : Decidable (InWorkRam address) :=
  inferInstanceAs (Decidable (_ ∧ _))

/-- The registers, and the places of flat memory from C000 to DFFF. -/
inductive OnWorkRam : Place → Prop where
  | register (r : Register) : OnWorkRam (.register r)
  | byte (address : UInt16) (inside : InWorkRam address) : OnWorkRam (FlatMemory.place address)

namespace Hardware

/-! ## The window -/

/-- The upper window of work RAM never shows bank 0. -/
theorem one_le_wramBank (hw : Hardware) : 1 ≤ hw.wramBank := by
  unfold wramBank
  split
  · exact Nat.le_max_left _ _
  · exact Nat.le_refl 1

/-- An address of work RAM stands for a byte of bank 0, or of the selected bank. -/
theorem resolve_workRam (hw : Hardware) {address : UInt16} (inside : InWorkRam address) :
    hw.resolve address =
      .wram ((if address < 0xD000 then 0 else hw.wramBank * 0x1000) + address.toNat % 0x1000) := by
  obtain ⟨above, below⟩ := inside
  by_cases lower : address < 0xD000
  · rw [hw.resolve_lower_wram (.inl ⟨above, lower⟩), if_pos lower, Nat.zero_add]
  · have upper : 0xD000 ≤ address := UInt16.not_lt.mp lower
    rw [hw.resolve_upper_wram (.inl ⟨upper, below⟩), if_neg lower]

/-- Different addresses of the window stand for different bytes: the bank in its upper half is
not the one in the lower half. -/
theorem resolve_workRam_inj (hw : Hardware) {a b : UInt16} (inside : InWorkRam a)
    (inside' : InWorkRam b) : hw.resolve a = hw.resolve b ↔ a = b := by
  constructor
  · intro same
    rw [hw.resolve_workRam inside, hw.resolve_workRam inside', Place.wram.injEq] at same
    have bank := hw.one_le_wramBank
    simp only [InWorkRam, UInt16.le_iff_toNat_le, UInt16.lt_iff_toNat_lt, UInt16.reduceToNat]
      at inside inside' same
    apply UInt16.toNat_inj.mp
    split at same <;> split at same <;> omega
  · rintro rfl
    rfl

/-! ## The image of flat memory -/

/-- The place that stands for a place of flat memory. -/
def imageOf (hw : Hardware) : Place → Place
  | .wram n => hw.resolve (UInt16.ofNat n)
  | place => place

/-- The image of the flat place of an address is the place for which the address stands. -/
theorem imageOf_place (hw : Hardware) (address : UInt16) :
    hw.imageOf (FlatMemory.place address) = hw.resolve address := by
  show hw.resolve (UInt16.ofNat address.toNat) = _
  rw [UInt16.ofNat_toNat]

/-- The hardware is still mapped as it was, and its work RAM shows what flat memory holds. -/
structure Shows (hw : Hardware) (memory : FlatMemory) (now : Hardware) : Prop where
  mapping : ∀ address, now.resolve address = hw.resolve address
  bytes : ∀ address, InWorkRam address →
    AddressSpace.read now address = AddressSpace.read memory address

/-- Work RAM is plain memory: what is stored there changes neither the mapping nor another
byte. -/
theorem Shows.store {hw now : Hardware} {memory : FlatMemory} (shows' : hw.Shows memory now)
    {address : UInt16} (inside : InWorkRam address) (value : UInt8) :
    hw.Shows (memory.store (FlatMemory.place address) value)
      (now.store (hw.resolve address) value) := by
  have place := now.resolve_workRam inside
  have memoryPlace : (now.resolve address).isMemory = true := by
    rw [place]
    rfl
  have kept := now.kept_of_resolve memoryPlace
  have mapping : ∀ other, (now.store (now.resolve address) value).resolve other =
      now.resolve other := by
    rw [place]
    intro other
    rfl
  rw [← shows'.mapping address]
  constructor
  · intro other
    rw [mapping, shows'.mapping]
  · intro other inside'
    show (now.store (now.resolve address) value).load
        ((now.store (now.resolve address) value).resolve other) =
      AddressSpace.load (memory.store (FlatMemory.place address) value) (FlatMemory.place other)
    rw [mapping, now.load_store_memory memoryPlace kept, memory.load_store_place]
    simp only [now.resolve_workRam_inj inside' inside, FlatMemory.place_inj]
    split
    · rfl
    · exact shows'.bytes other inside'

/-- The clock shows in no byte of work RAM. -/
theorem Shows.sync {hw now : Hardware} {memory : FlatMemory} (shows' : hw.Shows memory now)
    (cycles : UInt64) : hw.Shows memory { now with now := cycles } := by
  constructor
  · exact shows'.mapping
  · intro address inside
    have elsewhere : now.resolve address ≠ .io 4 := by
      rw [now.resolve_workRam inside]
      rintro ⟨⟩
    show { now with now := cycles }.load (now.resolve address) = _
    rw [now.load_now cycles elsewhere]
    exact shows'.bytes address inside

instance (hw : Hardware) : AddressSpace.Simulation hw.Shows hw.imageOf OnWorkRam where
  register r := rfl
  outside := by
    intro place kept outside r
    cases kept with
    | register r => exact absurd rfl (outside r)
    | byte address inside =>
      rw [hw.imageOf_place]
      exact hw.resolve_ne_register address r
  fixed _ _ _ := rfl
  resolve := by
    intro memory now shows' address
    exact (shows'.mapping address).trans (hw.imageOf_place address).symm
  load := by
    intro memory now shows' place kept
    cases kept with
    | register r => rfl
    | byte address inside =>
      rw [hw.imageOf_place, ← shows'.mapping address]
      exact shows'.bytes address inside
  store := by
    intro memory now shows' place kept value
    cases kept with
    | register r => exact shows'
    | byte address inside =>
      rw [hw.imageOf_place]
      exact shows'.store inside value
  sync := by
    intro memory now shows' cycles
    exact shows'.sync cycles

end Hardware

namespace System

/-! ## A routine that calls itself -/

/-- The processor is about to call C000 from C000. -/
structure CallsItself (s : System FlatMemory) (sp : UInt16) : Prop where
  pc : s.cpu.pc = 0xC000
  sp : s.sp = sp
  opcode : AddressSpace.read s.bus 0xC000 = 0xCD
  low : AddressSpace.read s.bus 0xC001 = 0x00
  high : AddressSpace.read s.bus 0xC002 = 0xC0

/-- The call of C000 that stands at C000. -/
def selfCall : Operation where
  action := .call .always ⟨FlatMemory.place 0xC002, FlatMemory.place 0xC001⟩
  length := 3
  cycles := 24

/-- The instruction of the routine is the call of itself. -/
theorem CallsItself.next {s : System FlatMemory} {sp : UInt16} (calls : s.CallsItself sp) :
    s.next = selfCall := by
  unfold System.next
  rw [decode_operation, calls.pc]
  unfold Handheld.decode
  rw [calls.opcode]
  rfl

/-- With room on the stack, the call touches work RAM alone. -/
theorem CallsItself.confined {s : System FlatMemory} {sp : UInt16} (calls : s.CallsItself sp)
    (room : InWorkRam (sp - 1) ∧ InWorkRam (sp - 2)) : s.Confined OnWorkRam := by
  have code : ∀ n < 3, OnWorkRam (s.resolve (0xC000 + UInt16.ofNat n)) := by
    intro n within
    refine .byte _ ?_
    interval_cases n <;> decide
  constructor
  · rw [calls.next]
    rintro ⟨⟩
  · rw [calls.pc]
    exact code 0 (by decide)
  · rw [calls.next, calls.pc]
    exact code
  · rw [calls.next]
    constructor
    · rintro _ ⟨⟩
    · rintro _ ⟨⟩
    · rintro _ ⟨⟩
      exact code 2 (by decide)
    · rintro _ ⟨⟩
      exact code 1 (by decide)
  · rw [calls.next]
    show ∀ address ∈ [s.sp - 1, s.sp - 2], _
    rw [calls.sp]
    simp only [List.forall_mem_cons]
    exact ⟨.byte _ room.1, .byte _ room.2, by simp⟩

/-- The word that is pushed does not lie over the routine, so it calls itself again. -/
theorem CallsItself.turn {s : System FlatMemory} {sp : UInt16} (calls : s.CallsItself sp)
    (apart : 0xC002 < sp - 1 ∧ 0xC002 < sp - 2) : s.turn.CallsItself (sp - 2) := by
  let decoded := (s.decode s.cpu.pc).1
  let target : PlacePair := ⟨FlatMemory.place 0xC002, FlatMemory.place 0xC001⟩
  have met : Condition.always.holds decoded.flags = true := rfl
  obtain ⟨paid, called, -, ready⟩ := decoded.branch_ready selfCall met 12
    fun s => s.pushPc.jumpTo (s.pushPc.loadWord target)
  have same : ∀ q, paid.held q = s.held q := fun q => (ready q).trans (s.held_decode _ q)
  have level : paid.sp = sp := (sp_of_held same).trans calls.sp
  have turned : s.turn = paid.pushPc.jumpTo (paid.pushPc.loadWord target) := by
    show decoded.execute s.next = _
    rw [calls.next, decoded.execute_of_plain rfl]
    exact called
  have pushed := paid.pushed_pushPc
  rw [← level] at apart
  have untouched : ∀ address ≤ 0xC002,
      AddressSpace.read paid.pushPc.bus address = AddressSpace.read s.bus address := by
    intro address below
    have first := UInt16.ne_of_lt (UInt16.lt_of_le_of_lt below apart.1)
    have second := UInt16.ne_of_lt (UInt16.lt_of_le_of_lt below apart.2)
    have held := pushed.elsewhere address first second
    rw [same] at held
    exact congrArg Prod.fst held
  have low := (untouched 0xC001 (by decide)).trans calls.low
  have high := (untouched 0xC002 (by decide)).trans calls.high
  rw [turned]
  constructor
  · show word (AddressSpace.read paid.pushPc.bus 0xC002)
      (AddressSpace.read paid.pushPc.bus 0xC001) = 0xC000
    rw [low, high]
    decide
  · show paid.pushPc.sp = sp - 2
    rw [pushed.sp, level]
  · rw [jumpTo_bus]
    exact (untouched 0xC000 (by decide)).trans calls.opcode
  · rw [jumpTo_bus]
    exact low
  · rw [jumpTo_bus]
    exact high

/-- With the stack at the end of work RAM the routine has room for some calls of itself. -/
theorem CallsItself.confined_turns {s : System FlatMemory} (calls : s.CallsItself 0xE000) :
    ∀ k < 3, (s.turns k).Confined OnWorkRam := by
  have one := calls.turn (by decide)
  have two := one.turn (by decide)
  intro k first
  interval_cases k
  · exact calls.confined (by decide)
  · exact one.confined (by decide)
  · exact two.confined (by decide)

/-- A processor at the routine, with the stack pointer above work RAM. -/
def routineCpu : Cpu where
  registers := ({} : Registers).setPair .sp 0xE000
  pc := 0xC000

/-- A processor at the routine in flat memory, with the stack pointer above work RAM. -/
def callingFlat : System FlatMemory where
  cpu := routineCpu
  bus := ((({} : FlatMemory).store (FlatMemory.place 0xC000) 0xCD).store
    (FlatMemory.place 0xC001) 0x00).store (FlatMemory.place 0xC002) 0xC0

/-- Hardware without a cartridge and without a boot image. -/
def emptyHardware : Hardware := .assemble .empty #[]

/-- The same processor at the routine in work RAM. -/
def callingHardware : System Hardware where
  cpu := routineCpu
  bus := ((emptyHardware.store (emptyHardware.resolve 0xC000) 0xCD).store
    (emptyHardware.resolve 0xC001) 0x00).store (emptyHardware.resolve 0xC002) 0xC0

/-- Hardware that was just assembled shows an empty flat memory. -/
theorem emptyHardware_shows : emptyHardware.Shows {} emptyHardware := by
  refine ⟨fun _ => rfl, fun address inside => ?_⟩
  have shown := emptyHardware.resolve_shown address
  show emptyHardware.load (emptyHardware.resolve address) =
    AddressSpace.load ({} : FlatMemory) (FlatMemory.place address)
  rw [emptyHardware.resolve_workRam inside] at shown ⊢
  generalize _ + address.toNat % 0x1000 = n at shown ⊢
  cases shown with
  | wram n bound =>
    have flat : address.toNat < 0x10000 := address.toNat_lt
    show ((Vector.replicate 0x8000 (0 : UInt8))[n]?).getD 0xFF =
      ((Vector.replicate 0x10000 (0 : UInt8))[address.toNat]?).getD 0xFF
    rw [Vector.getElem?_eq_getElem bound, Vector.getElem?_eq_getElem flat,
      Vector.getElem_replicate, Vector.getElem_replicate]

/-- The two processors see the routine alike. -/
theorem calling_shows : emptyHardware.Shows callingFlat.bus callingHardware.bus :=
  ((emptyHardware_shows.store (by decide) 0xCD).store (by decide) 0x00).store (by decide) 0xC0

/-- The flat processor is about to call the routine. -/
theorem callingFlat_callsItself : callingFlat.CallsItself 0xE000 := by
  have reads : ∀ address, AddressSpace.read callingFlat.bus address =
      if FlatMemory.place address = FlatMemory.place 0xC002 then 0xC0
      else if FlatMemory.place address = FlatMemory.place 0xC001 then 0x00
      else if FlatMemory.place address = FlatMemory.place 0xC000 then 0xCD
      else AddressSpace.read ({} : FlatMemory) address := by
    intro address
    show AddressSpace.load (((({} : FlatMemory).store (FlatMemory.place 0xC000) 0xCD).store
      (FlatMemory.place 0xC001) 0x00).store (FlatMemory.place 0xC002) 0xC0)
      (FlatMemory.place address) = _
    rw [FlatMemory.load_store_place, FlatMemory.load_store_place, FlatMemory.load_store_place]
    rfl
  constructor
  · rfl
  · exact word_bytes 0xE000
  · rw [reads, if_neg (by decide), if_neg (by decide), if_pos rfl]
  · rw [reads, if_neg (by decide), if_pos rfl]
  · rw [reads, if_pos rfl]

/-! ## The same run in both -/

/-- A processor that stays in work RAM does there what it does in flat memory with the same
bytes, for as many turns as it likes. The mapping stays fixed of itself, as nothing outside work
RAM is written. -/
theorem work_ram_runs_as_flat_memory {s : System FlatMemory} {s' : System Hardware}
    (cpu : s'.cpu = s.cpu)
    (bytes : ∀ address, InWorkRam address →
      AddressSpace.read s'.bus address = AddressSpace.read s.bus address)
    (n : Nat) (confined : ∀ k < n, (s.turns k).Confined OnWorkRam) :
    (∀ k < n,
      (s'.turns k).next.action.name = (s.turns k).next.action.name ∧
        (s'.turns k).next.action.number = (s.turns k).next.action.number ∧
        (s'.turns k).next.length = (s.turns k).next.length ∧
        (s'.turns k).next.cycles = (s.turns k).next.cycles) ∧
      (s'.turns n).cpu = (s.turns n).cpu ∧
      ∀ address, InWorkRam address →
        AddressSpace.read (s'.turns n).bus address = AddressSpace.read (s.turns n).bus address := by
  have start : Simulates s'.bus.Shows s s' := ⟨cpu, fun _ => rfl, bytes⟩
  refine ⟨?_, (start.turns n confined).cpu, (start.turns n confined).bus.bytes⟩
  intro k before
  have reached := start.turns k fun j earlier => confined j (Nat.lt_trans earlier before)
  have image := reached.next (confined k before)
  obtain ⟨name, number⟩ := Action.image_kind s'.bus.imageOf (s.turns k).next.action
  rw [image]
  exact ⟨name, number, rfl, rfl⟩

/-- Three calls of a routine by itself. -/
theorem work_ram_runs_self_call :
    callingHardware.cpu = callingFlat.cpu ∧
      (∀ k < 3, (callingFlat.turns k).Confined OnWorkRam) ∧
      (callingHardware.turns 3).cpu = (callingFlat.turns 3).cpu ∧
      ∀ address, InWorkRam address →
        AddressSpace.read (callingHardware.turns 3).bus address =
          AddressSpace.read (callingFlat.turns 3).bus address := by
  have start : callingHardware.cpu = callingFlat.cpu := rfl
  have confined := callingFlat_callsItself.confined_turns
  obtain ⟨-, cpu, bytes⟩ :=
    work_ram_runs_as_flat_memory start calling_shows.bytes 3 confined
  exact ⟨start, confined, cpu, bytes⟩

end System

end Handheld
