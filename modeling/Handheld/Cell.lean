import Handheld.Ledger

/-!
# Cells

A cell is a byte together with its identity and its note, as it is shown to an
observer. Machines do not work on cells: they keep values and notes apart.
-/

set_option autoImplicit false

namespace Handheld

/-- A byte and everything on record about it. -/
structure Cell where
  /-- Which byte it is. -/
  identity : Identity := .untracked
  /-- Its value. -/
  value : UInt8 := 0
  /-- What is known about it. -/
  note : Note := .blank
  deriving DecidableEq, Inhabited

namespace Cell

/-- Adds kinds of use to the record. -/
def mark (cell : Cell) (usage : Usage) (bank : Nat) : Cell :=
  { cell with note := { cell.note with record := cell.note.record.mark usage bank } }

/-- The kinds of use on record that have a name. -/
def usage (cell : Cell) : Usage := cell.note.record.usage.named

end Cell

end Handheld
