/-!
# Hexadecimal text

Numbers are written with upper-case digits and at least a given number of them,
bytes with exactly two.
-/

set_option autoImplicit false

namespace Handheld.Text.Hex

/-- The digit of a number below sixteen. -/
def digit (n : Nat) : Char :=
  Char.ofNat (if n < 10 then 48 + n else 55 + n)

/-- The last `count` hexadecimal digits of a number. -/
def lastDigits (count n : Nat) : List Char :=
  match count with
  | 0 => []
  | count + 1 => lastDigits count (n / 16) ++ [digit (n % 16)]

/-- The number of hexadecimal digits that a number needs, at least one. -/
def width (n : Nat) : Nat := Nat.log2 n / 4 + 1

/-- A number with at least `least` hexadecimal digits. -/
def ofNat (least n : Nat) : String :=
  String.ofList (lastDigits (max least (width n)) n)

/-- A byte as two digits. -/
def ofByte (value : UInt8) : String := ofNat 2 value.toNat

/-- A word as four digits. -/
def ofWord (value : UInt16) : String := ofNat 4 value.toNat

/-- Bytes as pairs of digits without separators. -/
def ofBytes (bytes : Array UInt8) : String :=
  bytes.foldl (fun text value =>
    (text.push (digit (value.toNat / 16))).push (digit (value.toNat % 16))) ""

end Handheld.Text.Hex
