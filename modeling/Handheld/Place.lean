/-!
# Places

Every byte that a program can touch lives at a place: one of the processor's
registers, a byte of an arena behind the address bus, or nowhere at all. A place
is an index, not a byte; it stays meaningful after the arena it points into has
been exchanged, and a place past the end of its arena simply holds nothing.

Places that a disassembler wants to hear about also carry an identity, one word
that names the arena and the index within it.
-/

set_option autoImplicit false

namespace Handheld

/-- The byte registers of the processor; the stack pointer counts as two. -/
inductive Register where
  | a | f | b | c | d | e | h | l | spHigh | spLow
  deriving DecidableEq, Inhabited

/-- All registers in the order in which they are listed to a reader. -/
def Register.all : List Register :=
  [.a, .f, .b, .c, .d, .e, .h, .l, .spHigh, .spLow]

/-- The position of a register in `Register.all`. -/
def Register.index : Register → Nat
  | .a => 0
  | .f => 1
  | .b => 2
  | .c => 3
  | .d => 4
  | .e => 5
  | .h => 6
  | .l => 7
  | .spHigh => 8
  | .spLow => 9

/-- Where a byte lives. -/
inductive Place where
  /-- A processor register. -/
  | register (r : Register)
  /-- A byte of the boot image, by its address. -/
  | boot (n : Nat)
  /-- A byte of cartridge ROM at `offset`, seen through the bus address `address`. -/
  | rom (offset : Nat) (address : UInt16)
  /-- A byte of cartridge RAM. -/
  | sram (n : Nat)
  /-- A clock register of the cartridge. -/
  | rtc (n : Nat)
  /-- A byte of video RAM, both banks counted through. -/
  | vram (n : Nat)
  /-- A byte of work RAM, all banks counted through. -/
  | wram (n : Nat)
  /-- A byte of the sprite table. -/
  | oam (n : Nat)
  /-- A device register, by its distance from FF00. -/
  | io (n : Nat)
  /-- A byte of high RAM. -/
  | hram (n : Nat)
  /-- The interrupt-enable register. -/
  | interruptEnable
  /-- No device answers here. -/
  | openBus
  deriving DecidableEq, Inhabited

/-- Two adjacent bytes that form one word. -/
structure PlacePair where
  /-- The upper byte. -/
  high : Place
  /-- The lower byte. -/
  low : Place
  deriving DecidableEq, Inhabited

namespace Place

/-- The place under which a byte is booked: the bus address through which ROM is
seen does not matter for which byte it is. -/
def home : Place → Place
  | .rom offset _ => .rom offset 0
  | place => place

/-- A home place is its own home. -/
@[simp] theorem home_home (place : Place) : place.home.home = place.home := by
  cases place <;> rfl

end Place

/-- A word that names an arena in bits 32 to 39 and an index below them. -/
structure Identity where
  /-- The word as it is handed to a disassembler. -/
  word : UInt64
  deriving DecidableEq, Inhabited

namespace Identity

/-- The bits that name the arena. -/
def arenaMask : UInt64 := 0xFF00000000

/-- The identity of bytes that are not reported. -/
def untracked : Identity := ⟨0xFFFFFFFFFFFFFFFF⟩

/-- The identity of byte `index` of the arena numbered `arena`. -/
def tagged (arena : UInt64) (index : Nat) : Identity :=
  ⟨(arena <<< 32) ||| UInt64.ofNat index⟩

/-- Whether an identity names an arena; the arena number with all bits set names none. -/
def isTracked (identity : Identity) : Bool :=
  identity.word &&& arenaMask != arenaMask

end Identity

namespace Place

/-- The identity of a place. Registers, the boot image and the cartridge clock
are not reported, nor is the unused device register 7F. Device registers are
named by their bus address. -/
def identity : Place → Identity
  | .rom offset _ => .tagged 0 offset
  | .vram n => .tagged 1 n
  | .sram n => .tagged 2 n
  | .wram n => .tagged 3 n
  | .oam n => .tagged 4 n
  | .io n => if n = 0x7F then .untracked else .tagged 5 (0xFF00 + n)
  | .interruptEnable => .tagged 5 0xFFFF
  | .hram n => .tagged 6 n
  | .register _ | .boot _ | .rtc _ | .openBus => .untracked

/-- A place and its home name one cell. -/
@[simp] theorem identity_home (place : Place) : place.home.identity = place.identity := by
  cases place <;> rfl

end Place

end Handheld
