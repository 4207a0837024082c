import Handheld.Proofs.Hardware.Resolve

/-!
# Plain memory

Video RAM, work RAM, the sprite table, high RAM and the interrupt-enable register do
nothing but keep bytes. A byte stored there is read back, and no other place shows
anything new.
-/

set_option autoImplicit false

namespace Handheld

/-- Whether a place belongs to a memory that does nothing but keep bytes. -/
def Place.isMemory : Place → Bool
  | .vram _ | .wram _ | .oam _ | .hram _ | .interruptEnable => true
  | _ => false

namespace Hardware

/-- All places but the device registers show the byte they keep. -/
theorem load_of_not_io (hw : Hardware) {place : Place} (elsewhere : ∀ n, place ≠ .io n) :
    hw.load place = (hw.byte? place).getD 0xFF := by
  cases place with
  | io n => exact absurd rfl (elsewhere n)
  | _ => rfl

/-- A place shows the byte kept there, in the light of the devices. -/
theorem load_congr {hw next : Hardware} {place : Place} (kept : next.byte? place = hw.byte? place)
    (alike : ∀ register stored,
      next.registerShows register stored = hw.registerShows register stored) :
    next.load place = hw.load place := by
  cases place with
  | io n =>
    have same : next.memories.io[n]? = hw.memories.io[n]? := kept
    simp only [load, same, alike]
  | _ => exact congrArg (Option.getD · 0xFF) kept

/-- No device looks at plain memory. -/
theorem registerShows_storeMemory (hw : Hardware) (place : Place) (value : UInt8)
    (register : DeviceRegister) (stored : UInt8) :
    (hw.storeMemory place value).registerShows register stored =
      hw.registerShows register stored := by
  cases place <;> cases register <;> rfl

/-- No bank is chosen in plain memory. -/
theorem resolve_storeMemory (hw : Hardware) (place : Place) (value : UInt8) (address : UInt16) :
    (hw.storeMemory place value).resolve address = hw.resolve address := by
  cases place <;> rfl

/-- A store to memory leaves every I/O byte alone. -/
theorem load_io_storeMemory (hw : Hardware) (place : Place) (value : UInt8) (n : Nat) :
    (hw.storeMemory place value).load (.io n) = hw.load (.io n) := by
  have io : (hw.storeMemory place value).memories.io = hw.memories.io := by
    cases place <;> rfl
  simp only [load, io, registerShows_storeMemory]

/-- A byte that is there can be replaced. -/
theorem getElem?_replaced {size : Nat} (bytes : Vector UInt8 size) {n : Nat}
    (kept : bytes[n]?.isSome = true) (value : UInt8) (k : Nat) :
    (bytes.setIfInBounds n value)[k]? = if k = n then some value else bytes[k]? := by
  have bound : n < size := by
    simpa using kept
  rw [Vector.getElem?_setIfInBounds]
  by_cases same : n = k
  · subst same
    simp [bound]
  · have : ¬ k = n := fun other => same other.symm
    simp [same, this]

/-- A byte put into plain memory is kept in its place and nowhere else. -/
theorem byte?_storeMemory (hw : Hardware) {place : Place} (memory : place.isMemory = true)
    (kept : (hw.byte? place).isSome = true) (value : UInt8) (other : Place) :
    (hw.storeMemory place value).byte? other =
      if other = place then some value else hw.byte? other := by
  cases place with
  | vram n => cases other <;> simp [storeMemory, byte?, getElem?_replaced hw.memories.vram kept]
  | wram n => cases other <;> simp [storeMemory, byte?, getElem?_replaced hw.memories.wram kept]
  | oam n => cases other <;> simp [storeMemory, byte?, getElem?_replaced hw.memories.oam kept]
  | hram n => cases other <;> simp [storeMemory, byte?, getElem?_replaced hw.memories.hram kept]
  | interruptEnable => cases other <;> simp [storeMemory, byte?]
  | _ => contradiction

/-- Plain memory takes what is stored to it, and no device notices. -/
theorem store_memory (hw : Hardware) {place : Place} (memory : place.isMemory = true)
    (value : UInt8) : hw.store place value = hw.storeMemory place value := by
  cases place <;> first | rfl | contradiction

/-- A byte stored in plain memory is read back, and no other place shows a change. -/
theorem load_store_memory (hw : Hardware) {place : Place} (memory : place.isMemory = true)
    (kept : (hw.byte? place).isSome = true) (value : UInt8) (other : Place) :
    (hw.store place value).load other = if other = place then value else hw.load other := by
  have bytes := hw.byte?_storeMemory memory kept value other
  rw [hw.store_memory memory]
  by_cases device : ∃ n, other = .io n
  · obtain ⟨n, rfl⟩ := device
    have apart : Place.io n ≠ place := by
      rintro rfl
      contradiction
    rw [load_io_storeMemory, if_neg apart]
  · have elsewhere : ∀ n, other ≠ .io n := fun n same => device ⟨n, same⟩
    rw [load_of_not_io _ elsewhere, load_of_not_io _ elsewhere, bytes]
    split <;> rfl

/-- A device register found at a distance lies there. -/
theorem DeviceRegister.eq_offset {n : Nat} {register : DeviceRegister}
    (found : DeviceRegister.ofOffset? n = some register) : n = register.offset := by
  unfold DeviceRegister.ofOffset? at found
  split at found
  all_goals
    first
    | cases found; rfl
    | contradiction

/-- The clock shows in the divider and nowhere else. -/
theorem load_now (hw : Hardware) (now : UInt64) {place : Place} (other : place ≠ .io 4) :
    { hw with now }.load place = hw.load place := by
  cases place with
  | io n =>
    simp only [load]
    split
    · split
      next register found =>
        cases register with
        | div =>
          have divider : n = 4 := DeviceRegister.eq_offset found
          exact absurd (congrArg Place.io divider) other
        | _ => rfl
      next => rfl
    · rfl
  | _ => rfl

/-- Plain memory that an address stands for is there. -/
theorem kept_of_resolve (hw : Hardware) {address : UInt16}
    (memory : (hw.resolve address).isMemory = true) :
    (hw.byte? (hw.resolve address)).isSome = true := by
  have shown := hw.resolve_shown address
  generalize hw.resolve address = place at shown memory ⊢
  cases shown with
  | vram n bound => simp [byte?, bound]
  | wram n bound => simp [byte?, bound]
  | oam n bound => simp [byte?, bound]
  | hram n bound => simp [byte?, bound]
  | interruptEnable => rfl
  | _ => contradiction

end Hardware

end Handheld
