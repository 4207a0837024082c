/-!
# Run options

The command line names one ROM image and may name a boot image, a card image, a
file for the dump of used bytes, and a limit in cycles. An option stands before
its value; the last of several options of one kind counts.
-/

set_option autoImplicit false

namespace Handheld.Runner

/-- What a run is asked to do. -/
structure RunOptions where
  /-- The file with the ROM image. -/
  rom : String
  /-- The file with the boot image. -/
  bootRom : Option String := none
  /-- The file with the card image of a flash cartridge. -/
  flashImage : Option String := none
  /-- The file that receives the dump of used bytes. -/
  instrumentation : Option String := none
  /-- The number of cycles after which the run ends. -/
  cycleLimit : Option UInt64 := none
  deriving DecidableEq, Inhabited

/-- What is wrong with a list of arguments. -/
inductive ArgumentError where
  /-- An option stands at the end. -/
  | missingValue (option : String)
  /-- The limit is not a number that fits. -/
  | badCycleCount (value : String)
  /-- An argument looks like an option and is none. -/
  | unknownOption (argument : String)
  /-- A second image is named. -/
  | secondRom
  /-- No image is named. -/
  | noRom
  deriving DecidableEq, Inhabited

/-- The wording of an argument error. -/
def ArgumentError.message : ArgumentError → String
  | .missingValue option => option ++ " needs a value"
  | .badCycleCount value => "bad cycle count '" ++ value ++ "'"
  | .unknownOption argument => "unknown option " ++ argument
  | .secondRom => "more than one ROM given"
  | .noRom => "no ROM given"

/-- The options that take a value. -/
inductive Switch where
  | instrumentation | bootRom | flashImage | cycleLimit
  deriving DecidableEq, Inhabited

/-- The switch that an argument spells. -/
def Switch.ofArgument? (argument : String) : Option Switch :=
  if argument = "-o" then some .instrumentation
  else if argument = "-b" then some .bootRom
  else if argument = "-e" then some .flashImage
  else if argument = "-c" then some .cycleLimit
  else none

/-- Whether a character is a decimal digit. -/
def isDigit (c : Char) : Bool := '0' ≤ c && c ≤ '9'

/-- The number that a list of decimal digits spells. -/
def digitsValue (digits : List Char) : Nat :=
  digits.foldl (fun value c => 10 * value + (c.toNat - '0'.toNat)) 0

/-- The number of cycles that a text spells: decimal digits, after a plus sign or
without one, for a number that fits into 64 bits. -/
def parseCycles (text : String) : Option UInt64 :=
  let digits := match text.toList with
    | '+' :: digits => digits
    | digits => digits
  if digits ≠ [] ∧ digits.all isDigit ∧ digitsValue digits < UInt64.size then
    some (UInt64.ofNat (digitsValue digits))
  else
    none

/-- What has been read of the arguments so far. -/
structure Collected where
  /-- The image, once named. -/
  rom : Option String := none
  /-- The last boot image named. -/
  bootRom : Option String := none
  /-- The last card image named. -/
  flashImage : Option String := none
  /-- The last dump file named. -/
  instrumentation : Option String := none
  /-- The last limit given. -/
  cycleLimit : Option UInt64 := none
  deriving DecidableEq, Inhabited

namespace Collected

/-- Takes the value of a switch. -/
def set (collected : Collected) (switch : Switch) (value : String) :
    Except ArgumentError Collected :=
  match switch with
  | .instrumentation => .ok { collected with instrumentation := some value }
  | .bootRom => .ok { collected with bootRom := some value }
  | .flashImage => .ok { collected with flashImage := some value }
  | .cycleLimit =>
    match parseCycles value with
    | some limit => .ok { collected with cycleLimit := some limit }
    | none => .error (.badCycleCount value)

/-- Reads the arguments from the left. -/
def read (collected : Collected) : List String → Except ArgumentError Collected
  | [] => .ok collected
  | argument :: rest =>
    match Switch.ofArgument? argument with
    | some switch =>
      match rest with
      | [] => .error (.missingValue argument)
      | value :: rest =>
        match collected.set switch value with
        | .ok collected => collected.read rest
        | .error error => .error error
    | none =>
      if argument.toList.head? = some '-' then .error (.unknownOption argument)
      else if collected.rom.isSome then .error .secondRom
      else ({ collected with rom := some argument } : Collected).read rest

/-- The options, if an image was named. -/
def finish (collected : Collected) : Except ArgumentError RunOptions :=
  match collected.rom with
  | some rom =>
    .ok
      { rom
        bootRom := collected.bootRom
        flashImage := collected.flashImage
        instrumentation := collected.instrumentation
        cycleLimit := collected.cycleLimit }
  | none => .error .noRom

end Collected

/-- Reads the options from a list of arguments. -/
def parseArguments (arguments : List String) : Except ArgumentError RunOptions :=
  match ({} : Collected).read arguments with
  | .ok collected => collected.finish
  | .error error => .error error

end Handheld.Runner
