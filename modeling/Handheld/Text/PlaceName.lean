import Handheld.Place

/-!
# Names of places

A place is written as the name of its kind and its numbers in decimal, separated
by colons.
-/

set_option autoImplicit false

namespace Handheld

/-- The name of a register. -/
def Register.name : Register → String
  | .a => "A"
  | .f => "F"
  | .b => "B"
  | .c => "C"
  | .d => "D"
  | .e => "E"
  | .h => "H"
  | .l => "L"
  | .spHigh => "SpHigh"
  | .spLow => "SpLow"

/-- The register with a name. -/
def Register.ofName? (name : String) : Option Register :=
  Register.all.find? fun r => r.name == name

/-- The written form of a place. -/
def Place.name : Place → String
  | .register r => "Reg:" ++ r.name
  | .boot n => "Boot:" ++ toString n
  | .rom offset address => "Rom:" ++ toString offset ++ ":" ++ toString address.toNat
  | .sram n => "SRam:" ++ toString n
  | .rtc n => "Rtc:" ++ toString n
  | .vram n => "VRam:" ++ toString n
  | .wram n => "WRam:" ++ toString n
  | .oam n => "Oam:" ++ toString n
  | .io n => "Io:" ++ toString n
  | .hram n => "HRam:" ++ toString n
  | .interruptEnable => "Ie"
  | .openBus => "OpenBus"

/-- The place with a written form. Numbers are reduced to the width that their kind
of place has. -/
def Place.ofName? (text : String) : Option Place :=
  match text.splitOn ":" with
  | ["Ie"] => some .interruptEnable
  | ["OpenBus"] => some .openBus
  | ["Reg", name] => (Register.ofName? name).map .register
  | ["Rom", offset, address] => do
    return .rom ((← offset.toNat?) % 0x100000000) (UInt16.ofNat (← address.toNat?))
  | [kind, number] => do
    let n ← number.toNat?
    match kind with
    | "Boot" => some (.boot (n % 0x10000))
    | "SRam" => some (.sram (n % 0x100000000))
    | "Rtc" => some (.rtc (n % 0x100))
    | "VRam" => some (.vram (n % 0x10000))
    | "WRam" => some (.wram (n % 0x10000))
    | "Oam" => some (.oam (n % 0x100))
    | "Io" => some (.io (n % 0x100))
    | "HRam" => some (.hram (n % 0x100))
    | _ => none
  | _ => none

end Handheld
