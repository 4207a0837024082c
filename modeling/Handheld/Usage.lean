import Handheld.Place

/-!
# Usage records

A usage record tells how running code used a byte. It is one word with three
fields: the identity of the place the byte was last moved to in bits 0 to 39, the
kinds of use in bits 40 to 47, and the ROM bank that was selected at the last use
in bits 48 to 59.
-/

set_option autoImplicit false

namespace Handheld

/-- A set of ways in which a byte was used. -/
structure Usage where
  /-- One bit for each way. -/
  bits : UInt8
  deriving DecidableEq, Inhabited

namespace Usage

/-- The byte starts an instruction. -/
def instruction : Usage := ⟨0x01⟩
/-- The byte was moved as data or belongs to an operand. -/
def data : Usage := ⟨0x02⟩
/-- The byte was the lower half of an address. -/
def pointerLow : Usage := ⟨0x04⟩
/-- The byte was the upper half of an address. -/
def pointerHigh : Usage := ⟨0x08⟩
/-- The byte was the lower half of a word. -/
def wordLow : Usage := ⟨0x10⟩
/-- The byte was the upper half of a word. -/
def wordHigh : Usage := ⟨0x20⟩

/-- The ways of either set. -/
def union (first second : Usage) : Usage := ⟨first.bits ||| second.bits⟩

/-- The ways that have a name; the two upper bits have none. -/
def named (usage : Usage) : Usage := ⟨usage.bits &&& 0x3F⟩

end Usage

/-- Everything that is on record about how one byte was used. -/
structure UsageRecord where
  /-- The three fields packed into one word. -/
  word : UInt64 := 0
  deriving DecidableEq, Inhabited

namespace UsageRecord

/-- The field of the kinds of use. -/
def usageMask : UInt64 := 0xFF0000000000

/-- The field of the ROM bank. -/
def bankMask : UInt64 := 0xFFF000000000000

/-- The kinds of use on record. -/
def usage (record : UsageRecord) : Usage := ⟨(record.word >>> 40).toUInt8⟩

/-- The ROM bank of the last use. -/
def bank (record : UsageRecord) : Nat := ((record.word &&& bankMask) >>> 48).toNat

/-- Adds kinds of use and replaces the bank by `bank`, of which twelve bits are kept. -/
def mark (record : UsageRecord) (usage : Usage) (bank : Nat) : UsageRecord :=
  let used := record.word ||| (usage.bits.toUInt64 <<< 40)
  ⟨(used &&& ~~~bankMask) ||| ((UInt64.ofNat bank <<< 48) &&& bankMask)⟩

/-- Replaces the place the byte was last moved to. -/
def recordDestination (record : UsageRecord) (destination : Identity) : UsageRecord :=
  ⟨(record.word &&& (usageMask ||| bankMask)) ||| destination.word⟩

end UsageRecord

end Handheld
