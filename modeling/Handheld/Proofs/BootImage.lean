import Handheld.Proofs.Hardware.CatchUp
import Handheld.Proofs.Hardware.Resolve
import Handheld.Proofs.Hardware.Stores
import Handheld.Proofs.Invariance

/-!
# The boot image

The boot image covers the start of the address space until the program writes something
other than zero to FF50. From then on it is gone for good: whatever is stored at FF50, the
register keeps the bits it has. Only a reset clears it, and a reset tells by the first byte
of the image, not by its size, whether there is a boot program to run. Without one it
unmaps the image itself. No one writes to the image.

* `Hardware.bootAnswers_of_resolve`: where the boot image is met it is mapped.
* `Hardware.lasting_unmapped` and `Hardware.lasting_boot`: what processor and devices leave
  alone.
-/

set_option autoImplicit false

namespace Handheld

namespace Hardware

/-! ## Where the boot image is met -/

/-- Where an address stands for a boot byte, the boot image answers. -/
theorem bootAnswers_of_resolve {hw : Hardware} {address : UInt16} {n : Nat}
    (found : hw.resolve address = .boot n) : hw.bootAnswers address = true := by
  by_cases answers : hw.bootAnswers address = true
  · exact answers
  · grind [resolve, Cartridge.romPlace, Cartridge.sramPlace, wramPlace]

/-- Once the boot image is unmapped, no address stands for a byte of it. -/
theorem resolve_ne_boot {hw : Hardware} (unmapped : hw.stored .boot ≠ 0) (address : UInt16)
    (n : Nat) : hw.resolve address ≠ .boot n := by
  intro found
  have answers := bootAnswers_of_resolve found
  simp [bootAnswers, bootMapped, unmapped] at answers

/-- The register that unmaps the image is read at FF50. -/
theorem read_boot (hw : Hardware) : AddressSpace.read hw 0xFF50 = hw.stored .boot := rfl

/-! ## What lasts -/

/-- A write to the boot register does not map the image again. -/
theorem registerKeeps_boot {stored : UInt8} (unmapped : stored ≠ 0) (value : UInt8) :
    registerKeeps .boot stored value ≠ 0 := by
  intro mapped
  exact unmapped (UInt8.or_eq_zero_iff.mp mapped).1

/-- No store maps the boot image again. -/
theorem lasting_unmapped : Lasting fun hw => hw.stored .boot ≠ 0 where
  store := by
    intro hw unmapped place value
    obtain same | ⟨written, kept⟩ := (hw.written_store place value).stored .boot
    · rwa [same]
    · rw [kept]
      exact registerKeeps_boot unmapped written
  sync := by
    intro hw unmapped now
    exact unmapped
  requests := by
    intro hw unmapped value
    rwa [stored_setStored, if_neg (by decide)]
  speed := by
    intro hw unmapped value
    rwa [stored_setStored, if_neg (by decide)]
  update := by
    intro hw unmapped now speed
    rwa [(hw.caughtUp_update now speed).stored .boot rfl]
  hear := by
    intro hw unmapped
    exact unmapped

/-- No store reaches the boot image. -/
theorem lasting_boot (boot : Array UInt8) : Lasting fun hw => hw.memories.boot = boot where
  store := by
    intro hw same place value
    exact (hw.written_store place value).boot.trans same
  sync := by
    intro hw same now
    exact same
  requests := by
    intro hw same value
    exact same
  speed := by
    intro hw same value
    exact same
  update := by
    intro hw same now speed
    exact (hw.caughtUp_update now speed).boot.trans same
  hear := by
    intro hw same
    exact same

end Hardware

namespace Machine

open Hardware

/-! ## Resets and exchanges -/

/-- No request changes the boot image. -/
theorem session_boot (m : Machine) (requests : List Request) :
    (m.session requests).1.bus.memories.boot = m.bus.memories.boot := by
  apply session_of_lasting (lasting_boot m.bus.memories.boot) _ rfl
  intro request _ renews next same
  cases request with
  | reset => exact next.reset_keeps.2.trans same
  | swap | install => exact same
  | _ => cases renews

/-- Without a boot program a reset unmaps the boot image. -/
theorem reset_unmaps {m : Machine} (none : m.bus.hasBootProgram = false) :
    m.reset.bus.stored .boot ≠ 0 := by
  have idle : m.bus.powerCycle.hasBootProgram = false := none
  have bus : m.reset.bus = m.bus.powerCycle.postBoot := by
    unfold reset
    dsimp only
    rw [if_neg (by rw [idle]; decide)]
  rw [bus, stored_postBoot]
  decide

/-- An unmapped image stays unmapped unless a reset finds a boot program to run. -/
theorem session_unmapped {m : Machine} {requests : List Request}
    (quiet : .reset ∈ requests → m.bus.hasBootProgram = false)
    (unmapped : m.bus.stored .boot ≠ 0) : (m.session requests).1.bus.stored .boot ≠ 0 := by
  have lasting := lasting_unmapped.and (lasting_boot m.bus.memories.boot)
  refine (session_of_lasting lasting ?_ ⟨unmapped, rfl⟩).1
  intro request asked renews next ⟨still, same⟩
  cases request with
  | reset =>
    have none : next.bus.hasBootProgram = false := by
      unfold hasBootProgram
      rw [same]
      exact quiet asked
    exact ⟨reset_unmaps none, next.reset_keeps.2.trans same⟩
  | swap | install => exact ⟨still, same⟩
  | _ => cases renews

/-- Once FF50 reads other than zero no address ever stands for a byte of the boot image
again, unless the machine is reset. After a reset without a boot program none ever does, and
no request changes a byte of the image. -/
theorem boot_image_stays_unmapped (m : Machine) (requests : List Request) :
    (m.read 0xFF50 ≠ 0 → .reset ∉ requests →
      ∀ address n, (m.session requests).1.resolve address ≠ .boot n) ∧
    (m.bus.memories.boot = #[] ∨ m.bus.memories.boot[0]? = some 0 →
      ∀ address n, (m.reset.session requests).1.resolve address ≠ .boot n) ∧
    ∀ n, (m.session requests).1.byte? (.boot n) = m.byte? (.boot n) := by
  refine ⟨?_, ?_, ?_⟩
  · intro shown never address n
    have unmapped : m.bus.stored .boot ≠ 0 := by
      rwa [Machine.read, m.load_resolve, read_boot] at shown
    apply resolve_ne_boot
    apply session_unmapped _ unmapped
    intro asked
    exact absurd asked never
  · intro image address n
    have none : m.bus.hasBootProgram = false := by
      unfold hasBootProgram
      obtain empty | zero := image
      · rw [empty]
        rfl
      · simp [zero]
    apply resolve_ne_boot
    apply session_unmapped
    · intro _
      unfold hasBootProgram at none ⊢
      rwa [m.reset_keeps.2]
    · exact reset_unmaps none
  · intro n
    show (m.session requests).1.bus.memories.boot[n]? = m.bus.memories.boot[n]?
    rw [m.session_boot]

/-- A machine whose boot program has just unmapped itself, with a stack that grows over
FF50. -/
def booted : Machine :=
  let m := (assemble .empty #[0x31, 0xFE, 0xFF]).reset.writeAt 0xFF50 0x01
  { m with cpu := { m.cpu with registers := m.cpu.registers.setPair .sp 0xFF52 } }

/-- Neither a zero written to FF50, nor the program counter put there on the way to a
handler, nor an instruction that clears its bit, nor another cartridge brings the image back.
With an image that is no program a reset leaves it unmapped, and the image stays what it
was. -/
theorem boot_image_stays_unmapped_under_attack :
    let attack := [.write 0xFF50 0x00, .serviceInterrupt 0x0040, .step, .move (.boot 0) (.io 0x50),
      .execute { action := .clearBit 0 (.io 0x50), length := 2, cycles := 16 },
      .swap .empty {}, .install .none, .run (some 64)]
    let idle := assemble .empty #[0x00, 0xFE, 0xFF]
    (assemble .empty #[0x31, 0xFE, 0xFF]).reset.resolve 0x0000 = .boot 0 ∧
      (∀ address n, (booted.session attack).1.resolve address ≠ .boot n) ∧
      (∀ address n, (idle.reset.session attack).1.resolve address ≠ .boot n) ∧
      (booted.session attack).1.byte? (.boot 0) = some 0x31 := by
  intro attack idle
  have unmapped : booted.read 0xFF50 ≠ 0 := by decide
  have never : .reset ∉ attack := by simp [attack]
  have first : booted.byte? (.boot 0) = some 0x31 := by decide
  obtain ⟨stays, -, same⟩ := boot_image_stays_unmapped booted attack
  obtain ⟨-, idles, -⟩ := boot_image_stays_unmapped idle attack
  exact ⟨by decide, stays unmapped never, idles (.inr rfl), (same 0).trans first⟩

end Machine

end Handheld
