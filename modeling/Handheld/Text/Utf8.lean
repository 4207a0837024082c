/-!
# Reading text from bytes

Bytes are read as UTF-8. A sequence that is not well-formed is cut at the first
byte that cannot continue it; the part before the cut reads as one replacement
character, and reading starts afresh at that byte.
-/

set_option autoImplicit false

namespace Handheld.Text.Utf8

/-- The character that stands for bytes that cannot be read. -/
def replacement : Char := Char.ofNat 0xFFFD

/-- A sequence that has begun: how many bytes are missing, the bits so far, and the
range of the next byte. -/
structure Sequence where
  /-- The number of bytes after the next one. -/
  afterNext : Nat
  /-- The bits read so far. -/
  bits : Nat
  /-- The least value of the next byte. -/
  least : Nat := 0x80
  /-- The greatest value of the next byte. -/
  greatest : Nat := 0xBF

/-- What the first byte of a character says. -/
inductive Lead where
  /-- It is the character. -/
  | whole (c : Char)
  /-- It begins a sequence. -/
  | begins (sequence : Sequence)
  /-- No character begins so. -/
  | invalid

/-- Reads the first byte of a character. The range of the second byte leaves out
sequences that are longer than needed, surrogates, and what lies past the last
character. -/
def lead (byte : UInt8) : Lead :=
  let b := byte.toNat
  if b < 0x80 then .whole (Char.ofNat b)
  else if b < 0xC2 then .invalid
  else if b < 0xE0 then .begins { afterNext := 0, bits := b - 0xC0 }
  else if b = 0xE0 then .begins { afterNext := 1, bits := 0, least := 0xA0 }
  else if b = 0xED then .begins { afterNext := 1, bits := 0xD, greatest := 0x9F }
  else if b < 0xF0 then .begins { afterNext := 1, bits := b - 0xE0 }
  else if b = 0xF0 then .begins { afterNext := 2, bits := 0, least := 0x90 }
  else if b < 0xF4 then .begins { afterNext := 2, bits := b - 0xF0 }
  else if b = 0xF4 then .begins { afterNext := 2, bits := 4, greatest := 0x8F }
  else .invalid

/-- Reads on, `sequence` being the one under way. -/
def readFrom (sequence : Option Sequence) : List UInt8 → List Char
  | [] => if sequence.isSome then [replacement] else []
  | byte :: bytes =>
    let afresh (before : List Char) : List Char :=
      match lead byte with
      | .whole c => before ++ c :: readFrom none bytes
      | .begins next => before ++ readFrom (some next) bytes
      | .invalid => before ++ replacement :: readFrom none bytes
    match sequence with
    | none => afresh []
    | some current =>
      if current.least ≤ byte.toNat ∧ byte.toNat ≤ current.greatest then
        let bits := current.bits * 64 + byte.toNat % 64
        match current.afterNext with
        | 0 => Char.ofNat bits :: readFrom none bytes
        | afterNext + 1 => readFrom (some { afterNext, bits }) bytes
      else
        afresh [replacement]

/-- The text that bytes spell. -/
def decode (bytes : List UInt8) : String := String.ofList (readFrom none bytes)

end Handheld.Text.Utf8
