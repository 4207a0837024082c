import Handheld.Runner.Options
import Mathlib.Data.List.Basic

/-!
# The grammar of the command line

A command line is a row of items. An item is a switch with its value, which may be any text, also
one that looks like a switch, or the name of an image, which must not look like one; the value of
`-c` has to spell a number. The reader goes through the arguments with a state, and what it comes to
can be told from the items alone: the image is the only name there is, and of the values of a switch
the last one counts (`Collected.Holds`). Where no item begins an argument is refused, and the first
one that is refused tells the error (`Refused`).

* `exists_split`: any arguments are items up to the first that is refused.
* `read_spelled` and `read_of_refused`: what the reader makes of the items and of the rest.
-/

set_option autoImplicit false

namespace Handheld.Runner

/-! ## Numbers -/

/-- A text spells a number of cycles: decimal digits, after a plus sign or without one. -/
def Spells (text : String) (cycles : UInt64) : Prop :=
  ∃ digits : List Char, (text.toList = digits ∨ text.toList = '+' :: digits) ∧ digits ≠ [] ∧
    (∀ c ∈ digits, c.isDigit = true) ∧ Nat.ofDigitChars 10 digits 0 = cycles.toNat

/-- The value of decimal digits is the library's. -/
theorem digitsValue_eq (digits : List Char) :
    digitsValue digits = Nat.ofDigitChars 10 digits 0 := rfl

/-- The digits of a text, without the sign. -/
def unsigned : List Char → List Char
  | '+' :: digits => digits
  | digits => digits

/-- A number of cycles is parsed from the digits after an optional sign. -/
theorem parseCycles_eq (text : String) :
    parseCycles text =
      let digits := unsigned text.toList
      if digits ≠ [] ∧ digits.all isDigit ∧ digitsValue digits < UInt64.size then
        some (UInt64.ofNat (digitsValue digits))
      else none := rfl

/-- Digits alone have no sign to drop. -/
theorem unsigned_of_isDigit {digits : List Char} (all : ∀ c ∈ digits, c.isDigit = true) :
    unsigned digits = digits := by
  unfold unsigned
  split
  next => exact absurd (all '+' List.mem_cons_self) (by decide)
  next => rfl

/-- A text is its digits, or a plus sign and its digits. -/
theorem unsigned_cases (text : List Char) :
    text = unsigned text ∨ text = '+' :: unsigned text := by
  unfold unsigned
  split
  next => exact .inr rfl
  next => exact .inl rfl

/-- A text is parsed to a number of cycles exactly if it spells the number. -/
theorem parseCycles_eq_some_iff {text : String} {cycles : UInt64} :
    parseCycles text = some cycles ↔ Spells text cycles := by
  rw [parseCycles_eq]
  constructor
  · intro parsed
    obtain ⟨⟨nonempty, all, small⟩, value⟩ := Option.ite_none_right_eq_some.mp parsed
    refine ⟨unsigned text.toList, unsigned_cases _, nonempty, List.all_eq_true.mp all, ?_⟩
    rw [← Option.some.inj value]
    exact (UInt64.toNat_ofNat_of_lt' small).symm
  · rintro ⟨digits, spelled, nonempty, all, value⟩
    have same : unsigned text.toList = digits := by
      obtain spelled | spelled := spelled
      · rw [spelled, unsigned_of_isDigit all]
      · rw [spelled]
        rfl
    have small : digitsValue digits < UInt64.size := by
      rw [digitsValue_eq, value]
      exact cycles.toNat_lt
    rw [same]
    refine (if_pos ⟨nonempty, List.all_eq_true.mpr all, small⟩).trans ?_
    rw [digitsValue_eq, value, UInt64.ofNat_toNat]

/-! ## Items -/

/-- The argument that spells a switch. -/
def Switch.word : Switch → String
  | .instrumentation => "-o"
  | .bootRom => "-b"
  | .flashImage => "-e"
  | .cycleLimit => "-c"

/-- An argument is read as a switch exactly if it is the word of that switch. -/
theorem Switch.ofArgument?_eq_some_iff {argument : String} {switch : Switch} :
    Switch.ofArgument? argument = some switch ↔ argument = switch.word := by
  constructor
  · intro spelled
    unfold ofArgument? at spelled
    grind [word]
  · rintro rfl
    cases switch <;> rfl

/-- An argument that begins with a dash is taken for a switch. -/
def LooksLikeSwitch (argument : String) : Prop := argument.toList.head? = some '-'

instance (argument : String) : Decidable (LooksLikeSwitch argument) :=
  inferInstanceAs (Decidable (_ = _))

/-- The word of a switch looks like one. -/
theorem Switch.looksLikeSwitch_word (switch : Switch) : LooksLikeSwitch switch.word := by
  cases switch <;> decide

/-- What a command line is made of: a switch with its value, or the name of an image. -/
inductive Item where
  | option (switch : Switch) (value : String)
  | rom (name : String)
  deriving DecidableEq

namespace Item

/-- The arguments that an item consists of. -/
def words : Item → List String
  | .option switch value => [switch.word, value]
  | .rom name => [name]

/-- A limit has to be a number, and the name of an image must not look like a switch. All other
values are free. -/
def WellFormed : Item → Prop
  | .option .cycleLimit value => ∃ cycles, Spells value cycles
  | .option _ _ => True
  | .rom name => ¬ LooksLikeSwitch name

/-- The kind of an item: its switch, or none for the name of an image. -/
def kind : Item → Option Switch
  | .option switch _ => some switch
  | .rom _ => none

/-- The text of an item beside its switch. -/
def text : Item → String
  | .option _ value => value
  | .rom name => name

end Item

/-- The arguments that a row of items consists of. -/
def spelled (items : List Item) : List String := items.flatMap Item.words

/-- The texts of the items of one kind, from the left. -/
def textsOf (kind : Option Switch) (items : List Item) : List String :=
  (items.filter (·.kind = kind)).map Item.text

/-- The names of images among the items, from the left. -/
def romsOf (items : List Item) : List String := textsOf none items

/-- The value of a switch that counts, if there is one: the last. -/
def lastOf (switch : Switch) (items : List Item) : Option String :=
  (textsOf (some switch) items).getLast?

/-- The texts of a kind in two lists, one after the other. -/
theorem textsOf_append (kind : Option Switch) (items later : List Item) :
    textsOf kind (items ++ later) = textsOf kind items ++ textsOf kind later := by
  unfold textsOf
  rw [List.filter_append, List.map_append]

/-- One more item adds its text to the texts of its kind. -/
theorem textsOf_concat (kind : Option Switch) (items : List Item) (item : Item) :
    textsOf kind (items ++ [item]) =
      if item.kind = kind then textsOf kind items ++ [item.text] else textsOf kind items := by
  rw [textsOf_append]
  by_cases same : item.kind = kind
  · simp [textsOf, same]
  · simp [textsOf, same]

/-- The names of images in two lists, one after the other. -/
theorem romsOf_append (items later : List Item) :
    romsOf (items ++ later) = romsOf items ++ romsOf later := textsOf_append _ _ _

/-- An option names no image. -/
theorem romsOf_concat_option (items : List Item) (switch : Switch) (value : String) :
    romsOf (items ++ [.option switch value]) = romsOf items := by
  rw [romsOf, textsOf_concat, if_neg (by simp [Item.kind])]
  rfl

/-- An image adds its name. -/
theorem romsOf_concat_rom (items : List Item) (name : String) :
    romsOf (items ++ [.rom name]) = romsOf items ++ [name] := by
  rw [romsOf, textsOf_concat, if_pos (by rfl)]
  rfl

/-- An option is the last of its switch, and of no other. -/
theorem lastOf_concat_option (switch other : Switch) (items : List Item) (value : String) :
    lastOf switch (items ++ [.option other value]) =
      if other = switch then some value else lastOf switch items := by
  unfold lastOf
  rw [textsOf_concat]
  by_cases same : other = switch
  · simp [Item.kind, Item.text, same]
  · simp [Item.kind, same]

/-- An image leaves the last value of every switch alone. -/
theorem lastOf_concat_rom (switch : Switch) (items : List Item) (name : String) :
    lastOf switch (items ++ [.rom name]) = lastOf switch items := by
  unfold lastOf
  rw [textsOf_concat, if_neg (by simp [Item.kind])]

/-! ## What has been collected -/

/-- What the reader has collected after some items. -/
def collectedOf (items : List Item) : Collected where
  rom := (romsOf items).head?
  bootRom := lastOf .bootRom items
  flashImage := lastOf .flashImage items
  instrumentation := lastOf .instrumentation items
  cycleLimit := (lastOf .cycleLimit items).bind parseCycles

variable {items : List Item}

/-- A well-formed value takes the place of the one before it. -/
theorem set_collectedOf {switch : Switch} {value : String}
    (formed : (Item.option switch value).WellFormed) :
    (collectedOf items).set switch value = .ok (collectedOf (items ++ [.option switch value])) := by
  unfold collectedOf
  rw [romsOf_concat_option]
  cases switch with
  | cycleLimit =>
    obtain ⟨cycles, spells⟩ := formed
    simp [Collected.set, lastOf_concat_option, parseCycles_eq_some_iff.mpr spells]
  | bootRom | flashImage | instrumentation => simp [Collected.set, lastOf_concat_option]

/-- A name takes the empty place for the image. -/
theorem name_collectedOf (unnamed : romsOf items = []) (name : String) :
    { collectedOf items with rom := some name } = collectedOf (items ++ [.rom name]) := by
  simp [collectedOf, romsOf_concat_rom, unnamed, lastOf_concat_rom]

/-- An option in the arguments is one more item. -/
theorem read_option {switch : Switch} {value : String}
    (formed : (Item.option switch value).WellFormed) (rest : List String) :
    (collectedOf items).read (switch.word :: value :: rest) =
      (collectedOf (items ++ [.option switch value])).read rest := by
  rw [Collected.read, Switch.ofArgument?_eq_some_iff.mpr rfl]
  simp only [set_collectedOf formed]

/-- A name in the arguments is one more item, unless there is one already. -/
theorem read_name {name : String} (plain : ¬ LooksLikeSwitch name) (rest : List String) :
    (collectedOf items).read (name :: rest) =
      if romsOf items = [] then (collectedOf (items ++ [.rom name])).read rest
      else .error .secondRom := by
  have unspelled : Switch.ofArgument? name = none := by
    rw [Option.eq_none_iff_forall_ne_some]
    rintro switch spelled
    rw [Switch.ofArgument?_eq_some_iff.mp spelled] at plain
    exact plain switch.looksLikeSwitch_word
  have taken : (collectedOf items).rom.isSome = true ↔ romsOf items ≠ [] := by
    simp [collectedOf, Option.isSome_iff_ne_none]
  rw [Collected.read, unspelled]
  simp only [show ¬ name.toList.head? = some '-' from plain, if_false]
  by_cases unnamed : romsOf items = []
  · rw [if_pos unnamed, if_neg (mt taken.mp (not_not_intro unnamed)), name_collectedOf unnamed]
  · rw [if_neg unnamed, if_pos (taken.mpr unnamed)]

/-- The reader goes through well-formed items up to the second name of an image. -/
theorem read_spelled (before : List Item) (formed : ∀ item ∈ items, item.WellFormed)
    (few : (romsOf before).length ≤ 1) (rest : List String) :
    (collectedOf before).read (spelled items ++ rest) =
      if (romsOf (before ++ items)).length ≤ 1 then (collectedOf (before ++ items)).read rest
      else .error .secondRom := by
  induction items generalizing before with
  | nil =>
    rw [List.append_nil, if_pos few]
    rfl
  | cons item items ih =>
    have later : ∀ item ∈ items, item.WellFormed := fun item member =>
      formed item (List.mem_cons_of_mem _ member)
    have here : item.WellFormed := formed item List.mem_cons_self
    have shift : before ++ item :: items = before ++ [item] ++ items := by simp
    rw [shift]
    cases item with
    | option switch value =>
      refine (read_option here _).trans (ih _ later ?_)
      rwa [romsOf_concat_option]
    | rom name =>
      refine (read_name here _).trans ?_
      by_cases unnamed : romsOf before = []
      · rw [if_pos unnamed]
        apply ih _ later
        rw [romsOf_concat_rom, unnamed]
        exact Nat.le_refl 1
      · have second : ¬ (romsOf (before ++ [.rom name] ++ items)).length ≤ 1 := by
          have first := List.length_pos_of_ne_nil unnamed
          rw [romsOf_append, romsOf_concat_rom, List.length_append, List.length_append,
            List.length_singleton]
          omega
        -- The reader stops at the second name, whatever comes after it.
        rw [if_neg unnamed, if_neg second]

/-! ## What is refused -/

/-- What stands where no item begins, and the error that it makes, when `roms` are the names of
images before it: a switch without a value, a limit that is not a number, a switch that there is
not, or a name where there has been one. -/
inductive Refused (roms : List String) : List String → ArgumentError → Prop
  | missingValue (switch : Switch) : Refused roms [switch.word] (.missingValue switch.word)
  | badCycleCount {value : String} (bad : ∀ cycles, ¬ Spells value cycles) (rest : List String) :
    Refused roms (Switch.cycleLimit.word :: value :: rest) (.badCycleCount value)
  | unknownOption {argument : String} (looks : LooksLikeSwitch argument)
    (unknown : ∀ switch : Switch, argument ≠ switch.word) (rest : List String) :
    Refused roms (argument :: rest) (.unknownOption argument)
  | secondRom {name : String} (plain : ¬ LooksLikeSwitch name) (named : roms ≠ [])
    (rest : List String) : Refused roms (name :: rest) .secondRom

/-- Arguments that are refused stop the reading with the error. -/
theorem read_of_refused {rest : List String} {error : ArgumentError}
    (refused : Refused (romsOf items) rest error) :
    (collectedOf items).read rest = .error error := by
  cases refused with
  | missingValue switch => rw [Collected.read, Switch.ofArgument?_eq_some_iff.mpr rfl]
  | @badCycleCount value bad rest =>
    have unparsed : parseCycles value = none := by
      rw [Option.eq_none_iff_forall_ne_some]
      exact fun cycles parsed => bad cycles (parseCycles_eq_some_iff.mp parsed)
    rw [Collected.read, Switch.ofArgument?_eq_some_iff.mpr rfl]
    simp [Collected.set, unparsed]
  | @unknownOption argument looks unknown rest =>
    have unspelled : Switch.ofArgument? argument = none := by
      rw [Option.eq_none_iff_forall_ne_some]
      exact fun switch spells => unknown switch (Switch.ofArgument?_eq_some_iff.mp spells)
    rw [Collected.read, unspelled]
    exact if_pos looks
  | secondRom plain named rest => rw [read_name plain, if_neg named]

/-- Arguments that begin with well-formed items, among them one name of an image at most. -/
structure Split (arguments : List String) (items : List Item) (rest : List String) : Prop where
  spells : arguments = spelled items ++ rest
  formed : ∀ item ∈ items, item.WellFormed
  few : (romsOf items).length ≤ 1

variable {arguments rest : List String}

/-- A split may take one more item that is well formed. -/
theorem Split.concat (item : Item) (split : Split arguments items (item.words ++ rest))
    (formed : item.WellFormed) (few : (romsOf (items ++ [item])).length ≤ 1) :
    Split arguments (items ++ [item]) rest where
  spells := by
    rw [split.spells, spelled, spelled, List.flatMap_append, List.append_assoc,
      List.flatMap_singleton]
  formed := by
    intro other member
    rcases List.mem_append.mp member with before | last
    · exact split.formed other before
    · rwa [List.mem_singleton.mp last]
  few := few

/-- What is left is nothing, or begins with an argument that is refused, or with one more item. -/
theorem Split.step (split : Split arguments items rest) :
    (rest = [] ∨ ∃ error, Refused (romsOf items) rest error) ∨
      ∃ item later, later.length < rest.length ∧ Split arguments (items ++ [item]) later := by
  cases rest with
  | nil => exact .inl (.inl rfl)
  | cons argument rest =>
    by_cases looks : LooksLikeSwitch argument
    · by_cases known : ∃ switch : Switch, argument = switch.word
      · obtain ⟨switch, rfl⟩ := known
        cases rest with
        | nil => exact .inl (.inr ⟨_, .missingValue switch⟩)
        | cons value rest =>
          by_cases formed : (Item.option switch value).WellFormed
          · have few : (romsOf (items ++ [.option switch value])).length ≤ 1 := by
              rw [romsOf_concat_option]
              exact split.few
            have shorter : rest.length < (switch.word :: value :: rest).length := by
              simp only [List.length_cons]
              omega
            exact .inr ⟨_, rest, shorter, split.concat (.option switch value) formed few⟩
          · cases switch with
            | cycleLimit => exact .inl (.inr ⟨_, .badCycleCount (not_exists.mp formed) rest⟩)
            | _ => exact absurd trivial formed
      · exact .inl (.inr ⟨_, .unknownOption looks (not_exists.mp known) rest⟩)
    · by_cases unnamed : romsOf items = []
      · have few : (romsOf (items ++ [.rom argument])).length ≤ 1 := by
          rw [romsOf_concat_rom, unnamed]
          exact Nat.le_refl 1
        exact .inr ⟨_, rest, Nat.lt_succ_self _, split.concat (.rom argument) looks few⟩
      · exact .inl (.inr ⟨_, .secondRom looks unnamed rest⟩)

/-- From where the items have got to they go on up to the first argument that is refused. -/
theorem Split.goesOn {arguments rest : List String} {items : List Item}
    (split : Split arguments items rest) :
    ∃ items rest, Split arguments items rest ∧
      (rest = [] ∨ ∃ error, Refused (romsOf items) rest error) := by
  rcases split.step with ends | ⟨item, later, shorter, next⟩
  · exact ⟨items, rest, split, ends⟩
  · exact next.goesOn
termination_by rest.length

/-- All arguments split into items and a rest that is empty or refused. -/
theorem exists_split (arguments : List String) :
    ∃ items rest, Split arguments items rest ∧
      (rest = [] ∨ ∃ error, Refused (romsOf items) rest error) := by
  have start : Split arguments [] arguments := ⟨rfl, by simp, Nat.zero_le 1⟩
  exact start.goesOn

/-- The reader stops with the error of the first argument that is refused, or has read it all. -/
theorem Split.read (split : Split arguments items rest) :
    ({} : Collected).read arguments = (collectedOf items).read rest := by
  rw [split.spells]
  refine (read_spelled [] split.formed (Nat.zero_le 1) rest).trans ?_
  exact if_pos split.few

/-! ## The options -/

/-- The options that items ask for. -/
structure Describes (items : List Item) (options : RunOptions) : Prop where
  rom : romsOf items = [options.rom]
  bootRom : options.bootRom = lastOf .bootRom items
  flashImage : options.flashImage = lastOf .flashImage items
  instrumentation : options.instrumentation = lastOf .instrumentation items
  cycleLimit : Option.Rel Spells (lastOf .cycleLimit items) options.cycleLimit

/-- The value of `-c` that counts is the value of an item. -/
theorem mem_of_lastOf {switch : Switch} {value : String} (last : lastOf switch items = some value) :
    .option switch value ∈ items := by
  have member : value ∈ textsOf (some switch) items := List.mem_of_getLast? last
  obtain ⟨item, kept, rfl⟩ := List.mem_map.mp member
  obtain ⟨here, kind⟩ := List.mem_filter.mp kept
  cases item with
  | option other value =>
    have same : other = switch := by simpa [Item.kind] using kind
    rw [← same]
    exact here
  | rom name => simp [Item.kind] at kind

/-- The limit of the collected options is the number that the last cycle switch spells. -/
theorem cycleLimit_collectedOf (formed : ∀ item ∈ items, item.WellFormed)
    (limit : Option UInt64) :
    (collectedOf items).cycleLimit = limit ↔
      Option.Rel Spells (lastOf .cycleLimit items) limit := by
  show (lastOf .cycleLimit items).bind parseCycles = limit ↔ _
  cases last : lastOf .cycleLimit items with
  | none =>
    cases limit <;> simp
  | some text =>
    obtain ⟨cycles, spells⟩ : (Item.option .cycleLimit text).WellFormed :=
      formed _ (mem_of_lastOf last)
    have parsed := parseCycles_eq_some_iff.mpr spells
    cases limit with
    | none => simp [parsed]
    | some other => simp [parseCycles_eq_some_iff]

/-- The collected options are incomplete exactly if no image is named. -/
theorem finish_eq_error_iff {error : ArgumentError} :
    (collectedOf items).finish = .error error ↔ romsOf items = [] ∧ error = .noRom := by
  have rom : (collectedOf items).rom = (romsOf items).head? := rfl
  unfold Collected.finish
  rw [rom]
  cases romsOf items with
  | nil => simp [eq_comm]
  | cons name others => simp

/-- The collected options are complete exactly if the items describe them. -/
theorem finish_eq_ok_iff (formed : ∀ item ∈ items, item.WellFormed)
    (few : (romsOf items).length ≤ 1) {options : RunOptions} :
    (collectedOf items).finish = .ok options ↔ Describes items options := by
  have limit := cycleLimit_collectedOf formed options.cycleLimit
  have rom : (collectedOf items).rom = (romsOf items).head? := rfl
  unfold Collected.finish
  rw [rom]
  constructor
  · intro finished
    cases names : romsOf items with
    | nil =>
      rw [names] at finished
      cases finished
    | cons name others =>
      have alone : others = [] := by
        rw [names, List.length_cons] at few
        exact List.length_eq_zero_iff.mp (by omega)
      rw [names] at finished
      cases finished
      exact ⟨by rw [names, alone], rfl, rfl, rfl, limit.mp rfl⟩
  · intro describes
    rw [describes.rom]
    have cycles := limit.mpr describes.cycleLimit
    obtain ⟨name, bootRom, flashImage, instrumentation, cycleLimit⟩ := options
    obtain ⟨-, rfl, rfl, rfl, -⟩ := describes
    subst cycles
    rfl

/-- Arguments that are all items are read as these describe. -/
theorem Split.parse_end (split : Split arguments items []) :
    parseArguments arguments = (collectedOf items).finish := by
  unfold parseArguments
  rw [split.read]
  rfl

/-- Arguments with a refused rest give its error. -/
theorem Split.parse_refused (split : Split arguments items rest) {error : ArgumentError}
    (refused : Refused (romsOf items) rest error) : parseArguments arguments = .error error := by
  unfold parseArguments
  rw [split.read, read_of_refused refused]

/-- What is made of well-formed items. -/
theorem parseArguments_spelled (formed : ∀ item ∈ items, item.WellFormed) :
    parseArguments (spelled items) =
      if (romsOf items).length ≤ 1 then (collectedOf items).finish else .error .secondRom := by
  have read := read_spelled [] formed (Nat.zero_le 1) []
  rw [List.append_nil, List.nil_append] at read
  unfold parseArguments
  rw [show ({} : Collected) = collectedOf [] from rfl, read]
  by_cases few : (romsOf items).length ≤ 1
  · rw [if_pos few, if_pos few]
    rfl
  · rw [if_neg few, if_neg few]

/-- Items of different kinds may change places. -/
theorem parseArguments_reordered {reordered : List Item}
    (formed : ∀ item ∈ items, item.WellFormed)
    (same : ∀ kind, reordered.filter (·.kind = kind) = items.filter (·.kind = kind)) :
    parseArguments (spelled reordered) = parseArguments (spelled items) := by
  have texts : ∀ kind, textsOf kind reordered = textsOf kind items := fun kind =>
    congrArg (List.map Item.text) (same kind)
  have names : romsOf reordered = romsOf items := texts none
  have lasts : ∀ switch, lastOf switch reordered = lastOf switch items := fun switch =>
    congrArg List.getLast? (texts (some switch))
  have collected : collectedOf reordered = collectedOf items := by
    simp only [collectedOf, names, lasts]
  have formedToo : ∀ item ∈ reordered, item.WellFormed := by
    intro item member
    have kept : item ∈ items.filter (·.kind = item.kind) := by
      rw [← same]
      exact List.mem_filter.mpr ⟨member, by simp⟩
    exact formed item (List.mem_of_mem_filter kept)
  rw [parseArguments_spelled formedToo, parseArguments_spelled formed, names, collected]

/-- The reader accepts just what splits into well-formed items with one name of an image, and makes
of them the options that they ask for: that image, and the last value of every switch. Other
arguments make the error of the first of them that is refused, or the error that no image is named
if none is. So items of different kinds may change places. -/
theorem arguments_follow_grammar (arguments : List String) :
    ((∃ options, parseArguments arguments = .ok options) ↔
      ∃ items, arguments = spelled items ∧ (∀ item ∈ items, item.WellFormed) ∧
        (romsOf items).length = 1) ∧
    (∀ options, parseArguments arguments = .ok options ↔
      ∃ items, arguments = spelled items ∧ (∀ item ∈ items, item.WellFormed) ∧
        Describes items options) ∧
    (∀ error, parseArguments arguments = .error error ↔
      ∃ items rest, Split arguments items rest ∧
        (Refused (romsOf items) rest error ∨
          rest = [] ∧ romsOf items = [] ∧ error = .noRom)) ∧
    (∀ items reordered : List Item, arguments = spelled items →
      (∀ item ∈ items, item.WellFormed) →
      (∀ kind, reordered.filter (·.kind = kind) = items.filter (·.kind = kind)) →
      parseArguments (spelled reordered) = parseArguments arguments) ∧
    ArgumentError.noRom.message = "no ROM given" := by
  have accepted : ∀ options, parseArguments arguments = .ok options ↔
      ∃ items, arguments = spelled items ∧ (∀ item ∈ items, item.WellFormed) ∧
        Describes items options := by
    intro options
    constructor
    · intro parsed
      obtain ⟨items, rest, split, rfl | ⟨error, refused⟩⟩ := exists_split arguments
      · rw [split.parse_end] at parsed
        have spells := split.spells
        rw [List.append_nil] at spells
        exact ⟨items, spells, split.formed, (finish_eq_ok_iff split.formed split.few).mp parsed⟩
      · rw [split.parse_refused refused] at parsed
        cases parsed
    · rintro ⟨items, rfl, formed, describes⟩
      have few : (romsOf items).length ≤ 1 := by
        rw [describes.rom]
        exact Nat.le_refl 1
      rw [parseArguments_spelled formed, if_pos few]
      exact (finish_eq_ok_iff formed few).mpr describes
  refine ⟨?_, accepted, ?_, ?_, rfl⟩
  · constructor
    · rintro ⟨options, parsed⟩
      obtain ⟨items, spells, formed, describes⟩ := (accepted options).mp parsed
      refine ⟨items, spells, formed, ?_⟩
      rw [describes.rom]
      rfl
    · rintro ⟨items, rfl, formed, one⟩
      rw [parseArguments_spelled formed, if_pos (Nat.le_of_eq one)]
      cases finished : (collectedOf items).finish with
      | ok options => exact ⟨options, rfl⟩
      | error error =>
        rw [(finish_eq_error_iff.mp finished).1] at one
        cases one
  · intro error
    constructor
    · intro parsed
      obtain ⟨items, rest, split, rfl | ⟨other, refused⟩⟩ := exists_split arguments
      · rw [split.parse_end] at parsed
        exact ⟨items, [], split, .inr ⟨rfl, finish_eq_error_iff.mp parsed⟩⟩
      · rw [split.parse_refused refused] at parsed
        cases parsed
        exact ⟨items, rest, split, .inl refused⟩
    · rintro ⟨items, rest, split, refused | ⟨rfl, unnamed⟩⟩
      · exact split.parse_refused refused
      · rw [split.parse_end]
        exact finish_eq_error_iff.mpr unnamed
  · rintro items reordered rfl formed same
    exact parseArguments_reordered formed same

/-- A value may look like a switch, and the last of two values counts, also if it comes in another
order. A number with a blank is refused before the second image and the unknown switch are met. -/
theorem arguments_follow_grammar_of_repeated :
    let arguments := ["-o", "-b", "-c", "007", "-o", "x", "a.gb", "-c", "+12"]
    parseArguments arguments =
        .ok { rom := "a.gb", instrumentation := some "x", cycleLimit := some 12 } ∧
      parseArguments ["-c", "007", "a.gb", "-o", "-b", "-c", "+12", "-o", "x"] =
        parseArguments arguments ∧
      parseArguments ["a.gb", "-b", "-c", "-c", "1 0", "b.gb", "-x"] =
        .error (.badCycleCount "1 0") := by
  intro arguments
  let items : List Item :=
    [.option .instrumentation "-b", .option .cycleLimit "007", .option .instrumentation "x",
      .rom "a.gb", .option .cycleLimit "+12"]
  have seven : Spells "007" 7 := parseCycles_eq_some_iff.mp (by decide)
  have twelve : Spells "+12" 12 := parseCycles_eq_some_iff.mp (by decide)
  have formed : ∀ item ∈ items, item.WellFormed := by
    simp only [items, List.forall_mem_cons, Item.WellFormed]
    exact ⟨trivial, ⟨7, seven⟩, trivial, by decide, ⟨12, twelve⟩, by simp⟩
  obtain ⟨-, accepted, -, reorders, -⟩ := arguments_follow_grammar arguments
  refine ⟨?_, ?_, ?_⟩
  · refine (accepted _).mpr ⟨items, rfl, formed, rfl, rfl, rfl, rfl, ?_⟩
    exact .some twelve
  · refine reorders items [.option .cycleLimit "007", .rom "a.gb", .option .instrumentation "-b",
      .option .cycleLimit "+12", .option .instrumentation "x"] rfl formed ?_
    rintro (_ | switch)
    · rfl
    · cases switch <;> rfl
  · obtain ⟨-, -, refuses, -, -⟩ :=
      arguments_follow_grammar ["a.gb", "-b", "-c", "-c", "1 0", "b.gb", "-x"]
    have blank : ∀ cycles, ¬ Spells "1 0" cycles := by
      intro cycles spells
      have unparsed : parseCycles "1 0" = none := by decide
      rw [parseCycles_eq_some_iff.mpr spells] at unparsed
      cases unparsed
    have begins : Split ["a.gb", "-b", "-c", "-c", "1 0", "b.gb", "-x"]
        [.rom "a.gb", .option .bootRom "-c"] ["-c", "1 0", "b.gb", "-x"] := by
      refine ⟨rfl, ?_, by decide⟩
      simp only [List.forall_mem_cons, Item.WellFormed]
      exact ⟨by decide, trivial, by simp⟩
    exact (refuses _).mpr ⟨_, _, begins, .inl (.badCycleCount blank _)⟩

end Handheld.Runner
