import Handheld.Device.Timer

/-!
# The serial interface

Nothing is plugged in. A transfer shifts the data register out bit by bit while
ones come in from the open line. The byte that leaves is captured when a transfer
starts, whether or not an earlier one has finished.
-/

set_option autoImplicit false

namespace Handheld

/-- The hidden state of the serial interface. -/
structure SerialInterface where
  /-- The bits of the transfer under way that are still to be shifted. -/
  bitsLeft : Nat := 0
  /-- When the next bit is shifted. -/
  nextBit : UInt64 := 0
  /-- The cycles that a bit takes. -/
  bitTime : UInt64 := 0
  /-- All bytes that left so far. -/
  output : Array UInt8 := #[]
  deriving DecidableEq, Inhabited

namespace SerialInterface

/-- Whether a transfer is under way. -/
def transferring (serial : SerialInterface) : Bool := serial.bitsLeft != 0

/-- Whether a control byte starts a transfer with the clock of this machine. -/
def starts (control : UInt8) : Bool := control &&& 0x81 == 0x81

/-- The cycles that a bit takes; color machines have a fast clock as well. -/
def bitTimeOf (control : UInt8) (color : Bool) : UInt64 :=
  if color && control &&& 0x02 != 0 then 16 else 512

/-- Starts a transfer and captures the byte. -/
def start (serial : SerialInterface) (now : UInt64) (data control : UInt8) (color : Bool) :
    SerialInterface :=
  let ⟨_, _, _, output⟩ := serial
  let bitTime := bitTimeOf control color
  { bitsLeft := 8, nextBit := now + bitTime, bitTime, output := output.push data }

/-- Gives up the transfer under way; what was captured stays. -/
def cancel (serial : SerialInterface) : SerialInterface := { serial with bitsLeft := 0 }

/-- Shifts up to `bits` bits that are due. Returns the interface, the data register,
and whether the last bit was among them. -/
def shiftDue (now : UInt64) (serial : SerialInterface) (data : UInt8) :
    Nat → SerialInterface × UInt8 × Bool
  | 0 => (serial, data, false)
  | bits + 1 =>
    if serial.nextBit ≤ now then
      let data := (data <<< 1) ||| 0x01
      let serial := { serial with bitsLeft := bits, nextBit := serial.nextBit + serial.bitTime }
      if bits = 0 then (serial, data, true) else shiftDue now serial data bits
    else
      (serial, data, false)

/-- Catches up with the time `now`. Returns the interface, the data register, and
whether the transfer was completed. -/
def update (serial : SerialInterface) (now : UInt64) (data : UInt8) :
    SerialInterface × UInt8 × Bool :=
  shiftDue now serial data serial.bitsLeft

end SerialInterface

end Handheld
