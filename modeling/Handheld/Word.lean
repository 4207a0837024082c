/-!
# Words

A word is two bytes, the upper and the lower one.
-/

set_option autoImplicit false

namespace Handheld

/-- The word whose upper and lower byte are given. -/
def word (high low : UInt8) : UInt16 :=
  (high.toUInt16 <<< 8) ||| low.toUInt16

/-- The upper byte of a word. -/
def highByte (value : UInt16) : UInt8 := (value >>> 8).toUInt8

/-- The lower byte of a word. -/
def lowByte (value : UInt16) : UInt8 := value.toUInt8

end Handheld
