import Handheld.Proofs.Deeds
import Handheld.Proofs.Records
import Handheld.Proofs.RomProgram

/-!
# Origins of bytes that cannot change

The origin of a byte is the place at which its present value first appeared. The bytes of the
ROM and of the boot image never change, so one would expect them to have none. But a move books
its destination whether or not the byte has arrived there: a program that moves a register to
an address of the ROM, as it does to choose a bank, leaves an origin on the byte that the
address stands for, and what is loaded from there later is put down to that register.

* `Deed.attributes` says what a deed does to whether a fixed byte has an origin, and
  `attributes_of_leads` that nothing else does: neither a store, nor a block copy, nor a sector
  of a flash cartridge books anything on a fixed byte.
* So whether a fixed byte has an origin after a session can be told from the deeds alone, and
  one to which nothing was moved has none.
-/

set_option autoImplicit false

namespace Handheld

namespace Place

/-- A place is fixed exactly if its home is. -/
theorem isFixed_home (place : Place) : place.home.isFixed = place.isFixed := by
  cases place <;> rfl

/-- Places with one home are both fixed or both not. -/
theorem isFixed_of_home {p q : Place} (same : p.home = q.home) : p.isFixed = q.isFixed := by
  rw [← isFixed_home p, same, isFixed_home]

/-- A fixed place is not the open bus. -/
theorem ne_openBus_of_isFixed {p : Place} (fixed : p.isFixed = true) : p ≠ .openBus := by
  rintro rfl
  contradiction

/-- Two places apart, one of which is fixed and the other is not. -/
theorem home_ne_of_isFixed {p q : Place} (fixed : q.isFixed = true) (other : p.isFixed = false) :
    q.home ≠ p.home := by
  intro same
  rw [isFixed_of_home same, other] at fixed
  contradiction

end Place

/-! ## What a store books on fixed bytes -/

namespace Ledger

variable (ledger : Ledger)

/-- A link of a place changes the origin of no place with another home. -/
theorem origin_link_of_ne (present : Place → Bool) {p q : Place} (source : Place)
    (apart : q.home ≠ p.home) :
    ((ledger.link present p source).note q).origin = (ledger.note q).origin := by
  by_cases here : present p = true
  · by_cases nowhere : p = .openBus
    · unfold link
      dsimp only
      rw [if_pos here, nowhere]
      split
      · exact origin_recordDestination _ _ _ _
      · rfl
    · rw [ledger.origin_link source q here nowhere, if_neg apart]
  · unfold link
    dsimp only
    rw [if_neg here]

/-- Clearing an origin clears that of all places with the same home. -/
theorem origin_clearOrigin (p q : Place) :
    ((ledger.clearOrigin p).note q).origin =
      if p ≠ .openBus ∧ q.home = p.home then none else (ledger.note q).origin := by
  unfold clearOrigin
  by_cases nowhere : p = .openBus
  · rw [nowhere]
    rfl
  · rw [note_modify _ _ _ _ nowhere]
    by_cases same : q.home = p.home
    · rw [if_pos same, if_pos ⟨nowhere, same⟩]
    · rw [if_neg same, if_neg fun both => same both.2]

end Ledger

namespace Hardware

/-- No address from 0x8000 on stands for a fixed place. -/
theorem isFixed_of_high (hw : Hardware) {address : UInt16} (high : ¬ address < 0x8000) :
    (hw.resolve address).isFixed = false := by
  unfold resolve
  rw [if_neg high]
  grind [Cartridge.sramPlace, wramPlace, Place.isFixed]

/-- A block copy ends in the sprite table or in video RAM. -/
theorem isFixed_of_mem_moves {hw : Hardware} {place : Place} {value : UInt8} {move : Move}
    (mem : move ∈ hw.moves place value) : move.destination.isFixed = false := by
  have sprites : ∀ page, move ∈ hw.spriteMoves page → move.destination.isFixed = false := by
    intro page among
    obtain ⟨i, -, rfl⟩ := List.mem_map.mp among
    rfl
  have video : ∀ control, move ∈ hw.videoMoves control → move.destination.isFixed = false := by
    intro control among
    obtain ⟨i, -, rfl⟩ := List.mem_map.mp among
    apply hw.isFixed_of_high
    rw [UInt16.not_lt, UInt16.le_iff_toNat_le, UInt16.toNat_or]
    exact Nat.left_le_or
  unfold moves at mem
  split at mem
  · split at mem
    · exact sprites _ mem
    · split at mem
      · exact video _ mem
      · cases mem
    · cases mem
  · cases mem

/-- Clearing origins of cartridge RAM leaves those of fixed places alone. -/
theorem origin_clearSram (size offset count : Nat) (ledger : Ledger) {q : Place}
    (fixed : q.isFixed = true) :
    ((clearSram size offset count ledger).note q).origin = (ledger.note q).origin := by
  induction count generalizing offset ledger with
  | zero => rfl
  | succ count ih =>
    unfold clearSram
    split
    · have apart : q.home ≠ (Place.sram offset).home := Place.home_ne_of_isFixed fixed rfl
      rw [ih, Ledger.origin_clearOrigin, if_neg fun both => apart both.2]
    · rfl

/-- What a store sets off by itself leaves the origins of fixed bytes alone. -/
theorem origin_trail (hw : Hardware) (place : Place) (value : UInt8) (ledger : Ledger) {q : Place}
    (fixed : q.isFixed = true) :
    ((hw.trail place value ledger).note q).origin = (ledger.note q).origin := by
  have copied : ∀ moves : List Move, (∀ move ∈ moves, move.destination.isFixed = false) →
      ∀ ledger : Ledger, ((moves.foldl (fun ledger move =>
        ledger.link hw.present move.destination move.source) ledger).note q).origin =
          (ledger.note q).origin := by
    intro moves elsewhere
    induction moves with
    | nil =>
      intro ledger
      rfl
    | cons move moves ih =>
      intro ledger
      have apart := Place.home_ne_of_isFixed fixed (elsewhere move List.mem_cons_self)
      rw [List.foldl_cons, ih fun later mem => elsewhere later (List.mem_cons_of_mem _ mem)]
      exact ledger.origin_link_of_ne _ _ apart
  unfold trail
  split
  · exact copied _ (fun move mem => isFixed_of_mem_moves mem) ledger
  · split
    · exact origin_clearSram _ _ _ ledger fixed
    · rfl
  · rfl

/-- A fixed byte is there as long as the fixed memories stay what they are. -/
theorem Holds.present_fixed {hw next : Hardware} (h : Holds hw next) {place : Place}
    (fixed : place.isFixed = true) : System.present next place = System.present hw place := by
  cases place with
  | boot n =>
    show (next.memories.boot[n]?).isSome = _
    rw [h.boot]
    rfl
  | rom offset address =>
    show (next.cartridge.rom.bytes[offset]?).isSome = _
    rw [h.rom]
    rfl
  | _ => cases fixed

/-- Whether a fixed byte is there depends on its home. -/
theorem present_of_home (hw : Hardware) {p q : Place} (fixed : q.isFixed = true)
    (same : p.home = q.home) : System.present hw p = System.present hw q := by
  cases q with
  | boot n =>
    cases p with
    | boot k =>
      cases same
      rfl
    | _ => cases same
  | rom offset address =>
    cases p with
    | rom k other =>
      cases same
      rfl
    | _ => cases same
  | _ => cases fixed

end Hardware

/-! ## Deeds that are aimed at fixed bytes -/

/-- Whether a fixed byte has an origin after a deed, given whether it had one before: a deed that
is aimed at the byte decides, and leaves an origin there if it is a move. -/
def Deed.attributes (place : Place) (had : Bool) (deed : Deed) : Bool :=
  if deed.place.home = place.home then deed.isMove else had

namespace System

variable {s t : System Hardware} {place : Place}

/-- Whether there is an origin on record of a place. -/
def HasOrigin (s : System Hardware) (place : Place) : Bool :=
  (s.ledger.note place).origin.isSome

/-- Whether there is an origin depends on the origin on record. -/
theorem hasOrigin_of_eq (same : (t.ledger.note place).origin = (s.ledger.note place).origin) :
    t.HasOrigin place = s.HasOrigin place :=
  congrArg Option.isSome same

/-- A store keeps the origins of fixed bytes, and the bytes. -/
theorem store_fixed (s : System Hardware) (destination : Place) (value : UInt8)
    (fixed : place.isFixed = true) :
    ((s.store destination value).ledger.note place).origin = (s.ledger.note place).origin ∧
      present (s.store destination value).bus place = present s.bus place := by
  refine ⟨?_, ?_⟩
  · rw [store_ledger_eq]
    exact s.bus.origin_trail _ _ _ fixed
  · have stored := (Proceeds.refl s).storeAt destination value
    exact ((Hardware.lasting_holds s.bus).proceeds stored (.refl _)).present_fixed fixed

/-- A deed whose booking changes the origin of its own place only, and only if there is a byte,
decides whether that place has one. -/
theorem attributes_of_booked (deed : Deed) (value : UInt8) {ledger : Ledger}
    (fixed : place.isFixed = true)
    (elsewhere : place.home ≠ deed.place.home →
      (ledger.note place).origin = ((s.store deed.place value).ledger.note place).origin)
    (absent : present (s.store deed.place value).bus deed.place = false →
      ledger = (s.store deed.place value).ledger)
    (aimed : present (s.store deed.place value).bus deed.place = true →
      deed.place ≠ .openBus → place.home = deed.place.home →
        (ledger.note place).origin.isSome = deed.isMove) :
    (ledger.note place).origin.isSome =
      if present s.bus place then Deed.attributes place (s.HasOrigin place) deed
      else s.HasOrigin place := by
  obtain ⟨kept, here⟩ := s.store_fixed deed.place value fixed
  unfold Deed.attributes HasOrigin
  by_cases same : deed.place.home = place.home
  · have answers : deed.place ≠ .openBus :=
      Place.ne_openBus_of_isFixed ((Place.isFixed_of_home same).trans fixed)
    have there : present (s.store deed.place value).bus deed.place = present s.bus place :=
      (Hardware.present_of_home _ fixed same).trans here
    rw [if_pos same]
    cases exist : present s.bus place with
    | true => exact aimed (there.trans exist) answers same.symm
    | false =>
      rw [absent (there.trans exist), kept]
      rfl
  · rw [elsewhere fun other => same other.symm, kept, if_neg same, ite_self]

/-- A write clears the origin of a fixed byte that it is aimed at. -/
theorem attributes_write (s : System Hardware) (written : Place) (value : UInt8)
    (fixed : place.isFixed = true) :
    (s.write written value).HasOrigin place =
      if present s.bus place then Deed.attributes place (s.HasOrigin place) (.write written)
      else s.HasOrigin place := by
  apply attributes_of_booked (.write written) value fixed
  all_goals
    unfold write
    rw [clearOrigin_eq]
    dsimp only [Deed.place]
  · intro apart
    split
    · rw [Ledger.origin_clearOrigin, if_neg fun both => apart both.2]
    · rfl
  · intro absent
    rw [if_neg (Bool.eq_false_iff.mp absent)]
  · intro here answers same
    rw [if_pos here, Ledger.origin_clearOrigin, if_pos ⟨answers, same⟩]
    rfl

/-- A move gives an origin to a fixed byte that it is aimed at. -/
theorem attributes_move (s : System Hardware) (destination source : Place)
    (fixed : place.isFixed = true) :
    (s.move destination source).HasOrigin place =
      if present s.bus place then
        Deed.attributes place (s.HasOrigin place) (.move destination source)
      else s.HasOrigin place := by
  let stored := s.store destination (s.load source)
  have booked : (s.move destination source).ledger =
      stored.ledger.link (present stored.bus) destination source := rfl
  unfold HasOrigin
  rw [booked]
  apply attributes_of_booked (.move destination source) (s.load source) fixed
  · intro apart
    exact Ledger.origin_link_of_ne _ _ _ apart
  · intro absent
    dsimp only [Deed.place] at absent
    unfold Ledger.link
    dsimp only
    exact if_neg (Bool.eq_false_iff.mp absent)
  · intro here answers same
    dsimp only [Deed.place] at here answers same
    rw [Ledger.origin_link _ _ _ here answers, if_pos same]
    rfl

/-- Whether a fixed byte has an origin is told by the deeds, one after the other. -/
theorem attributes_of_works {n : Nat} {deeds : List Deed} (works : Works s n deeds t)
    (fixed : place.isFixed = true) :
    t.HasOrigin place =
      if present s.bus place then deeds.foldl (Deed.attributes place) (s.HasOrigin place)
      else s.HasOrigin place := by
  induction works with
  | aside _ _ _ ledger =>
    unfold HasOrigin
    rw [ledger]
    split <;> rfl
  | mark s marked usage =>
    have same : (s.mark marked usage).HasOrigin place = s.HasOrigin place := by
      apply hasOrigin_of_eq
      rw [mark_eq]
      dsimp only
      split
      · exact Ledger.origin_mark _ _ _ _ _
      · rfl
    rw [same]
    split <;> rfl
  | flags s flags =>
    have apart : ¬(Place.register .f).home = place.home :=
      (Place.home_ne_of_isFixed fixed rfl).symm
    have same : (s.setFlags flags).HasOrigin place = s.HasOrigin place := rfl
    rw [List.foldl_cons, List.foldl_nil, Deed.attributes, Deed.place, if_neg apart, ite_self]
    exact same
  | write s written value => exact s.attributes_write written value fixed
  | move s destination source => exact s.attributes_move destination source fixed
  | @trans s t u m n first second before _ ihBefore ihAfter =>
    have holds := (Hardware.lasting_holds s.bus).proceeds before.proceeds (.refl _)
    rw [ihAfter, ihBefore, holds.present_fixed fixed, List.foldl_append]
    split <;> rfl

/-- Deeds decide in turn whether a fixed byte has an origin. -/
theorem attributes_of_leads {deeds : List Deed} (leads : Leads s deeds t)
    (fixed : place.isFixed = true) :
    t.HasOrigin place =
      if present s.bus place then deeds.foldl (Deed.attributes place) (s.HasOrigin place)
      else s.HasOrigin place := by
  induction leads with
  | works works => exact attributes_of_works works fixed
  | aside ledger =>
    unfold HasOrigin
    rw [ledger]
    split <;> rfl
  | trans before _ ihBefore ihAfter =>
    rw [ihAfter, ihBefore, before.holds.present_fixed fixed, List.foldl_append]
    split <;> rfl

/-- A value that is moved from a fixed byte without an origin is put down to the byte itself. -/
theorem origin_move_of_not_hasOrigin {destination : Place} (fixed : place.isFixed = true)
    (without : s.HasOrigin place = false)
    (arrives : present (s.move destination place).bus destination = true) :
    ((s.move destination place).ledger.note destination).origin = some place := by
  let stored := s.store destination (s.load place)
  have answers : destination ≠ .openBus := by
    rintro rfl
    contradiction
  obtain ⟨kept, -⟩ := s.store_fixed destination (s.load place) fixed
  have nowhere : (stored.ledger.note place).origin = none := by
    rw [kept]
    exact Option.isNone_iff_eq_none.mp (Option.isSome_eq_false_iff.mp without)
  have itself : stored.ledger.root (present stored.bus) place = place := by
    unfold Ledger.root Ledger.origin?
    rw [nowhere, ite_self]
    rfl
  have booked : ((s.move destination place).ledger.note destination).origin =
      some (stored.ledger.root (present stored.bus) place) :=
    (Ledger.origin_link _ _ _ arrives answers).trans (if_pos rfl)
  rw [booked, itself]

end System

namespace Machine

/-! ## Sessions -/

/-- Whether a fixed byte has an origin after a request, given whether it had one before: its deeds
decide if there is a byte, and with a cartridge come the origins on its record. -/
def attributes (m : Machine) (place : Place) (had : Bool) : Request → Bool
  | .swap _ notes =>
    match place with
    | .rom offset _ => (notes.rom.note offset).origin.isSome
    | _ => had
  | request =>
    if System.present m.bus place then (m.deedsOf request).foldl (Deed.attributes place) had
    else had

/-- Whether a fixed byte has an origin after a session. -/
def attributedIn (m : Machine) (place : Place) (had : Bool) : List Request → Bool
  | [] => had
  | request :: requests =>
    (m.perform request).1.attributedIn place (m.attributes place had request) requests

/-- No move is aimed at a byte in a session, and no cartridge comes with an origin of it on
record. -/
def Spares (m : Machine) (place : Place) : List Request → Prop
  | [] => True
  | request :: requests =>
    (∀ deed ∈ m.deedsOf request, deed.isMove = true → deed.place.home ≠ place.home) ∧
      (∀ cartridge notes, request = .swap cartridge notes →
        ∀ offset address, place = .rom offset address →
          (notes.rom.note offset).origin = none) ∧
      (m.perform request).1.Spares place requests

variable {m : Machine} {place : Place}

/-- A request decides whether a fixed byte has an origin. -/
theorem attributes_perform {request : Request} (single : request.isRow = false)
    (fixed : place.isFixed = true) :
    (m.perform request).1.HasOrigin place = m.attributes place (m.HasOrigin place) request := by
  cases continues : request.continues with
  | true =>
    have led := System.attributes_of_leads (leads_request (m := m) single continues) fixed
    cases request with
    | reset | swap => cases continues
    | _ => exact led
  | false =>
    cases request with
    | reset =>
      have kept : (m.reset.ledger.note place).origin = (m.ledger.note place).origin := by
        have cycled : m.reset.ledger = m.ledger.powerCycle := by
          unfold reset
          dsimp only
          split <;> rfl
        rw [cycled]
        cases place with
        | boot | rom => rfl
        | _ => cases fixed
      show m.reset.HasOrigin place = ite _ (m.HasOrigin place) (m.HasOrigin place)
      rw [ite_self]
      exact System.hasOrigin_of_eq kept
    | swap cartridge notes =>
      cases place with
      | boot | rom => rfl
      | _ => cases fixed
    | _ => cases continues

/-- The requests of a session decide in turn whether a fixed byte has an origin. -/
theorem attributedIn_session {requests : List Request}
    (single : ∀ request ∈ requests, request.isRow = false) (fixed : place.isFixed = true) :
    (m.session requests).1.HasOrigin place =
      m.attributedIn place (m.HasOrigin place) requests := by
  induction requests generalizing m with
  | nil => rfl
  | cons request requests ih =>
    have first := attributes_perform (m := m) (single request List.mem_cons_self) fixed
    have rest := ih (m := (m.perform request).1) fun next mem =>
      single next (List.mem_cons_of_mem _ mem)
    rw [first] at rest
    exact rest

/-- The deeds of a single step decide in turn. -/
theorem attributedIn_step (here : System.present m.bus place = true) (had : Bool) :
    m.attributedIn place had [.step] = m.deedsOfStep.foldl (Deed.attributes place) had :=
  if_pos here

/-- Deeds leave a byte without an origin if none of them moves anything there. -/
theorem attributes_of_spared {deeds : List Deed}
    (spared : ∀ deed ∈ deeds, deed.isMove = true → deed.place.home ≠ place.home) :
    deeds.foldl (Deed.attributes place) false = false := by
  induction deeds with
  | nil => rfl
  | cons deed deeds ih =>
    have first : Deed.attributes place false deed = false := by
      unfold Deed.attributes
      split
      next aimed =>
        exact Bool.eq_false_iff.mpr fun moved => spared deed List.mem_cons_self moved aimed
      next => rfl
    rw [List.foldl_cons, first]
    exact ih fun later mem => spared later (List.mem_cons_of_mem _ mem)

/-- Where no move is aimed at a byte, it has no origin in the end. -/
theorem Spares.attributedIn {requests : List Request} (spares : m.Spares place requests) :
    m.attributedIn place false requests = false := by
  induction requests generalizing m with
  | nil => rfl
  | cons request requests ih =>
    obtain ⟨moves, brought, rest⟩ := spares
    have first : m.attributes place false request = false := by
      have led : ite (System.present m.bus place = true)
          ((m.deedsOf request).foldl (Deed.attributes place) false) false = false := by
        rw [attributes_of_spared moves, ite_self]
      cases request with
      | swap cartridge notes =>
        cases place with
        | rom offset address => exact congrArg Option.isSome (brought _ _ rfl _ _ rfl)
        | _ => rfl
      | _ => exact led
    show (m.perform request).1.attributedIn place (m.attributes place false request) requests = _
    rw [first]
    exact ih rest

/-- Whether a byte of the ROM or of the boot image has an origin after a session is told by the
last deed that was aimed at it: a move leaves one, and a write takes it away. If no move is aimed
at the byte and no cartridge brings one along, it stays without an origin, and what is then moved
from there is put down to the byte itself. A run and a frame are steps, and are taken as such. -/
theorem fixed_origin_iff_moved (m : Machine) (requests : List Request)
    (single : ∀ request ∈ requests, request.isRow = false) (place : Place)
    (fixed : place.isFixed = true) :
    let last := (m.session requests).1
    last.HasOrigin place = m.attributedIn place (m.HasOrigin place) requests ∧
      (m.HasOrigin place = false → m.Spares place requests →
        last.HasOrigin place = false ∧
          ∀ destination,
            System.present (last.move destination place).bus destination = true →
              ((last.move destination place).ledger.note destination).origin = some place) := by
  intro last
  have told := attributedIn_session (m := m) single fixed
  refine ⟨told, fun without spares => ?_⟩
  rw [without, spares.attributedIn] at told
  exact ⟨told, fun destination => System.origin_move_of_not_hasOrigin fixed told⟩

/-- A machine whose boot image stores the accumulator to an address of the ROM. -/
def choosing : Machine := (assemble .empty #[0xEA, 0x00, 0x01]).reset

/-- The step moves the accumulator to the byte, which stays what it is and gets an origin. -/
theorem choosing_step :
    System.present choosing.bus (.rom 0x100 0x0100) = true ∧
      choosing.deedsOfStep = [.move (.rom 0x100 0x0100) (.register .a)] ∧
      (choosing.step.1.cell? (.rom 0x100 0x0100)).map
        (fun cell => (cell.value, cell.note.origin)) = some (0xDD, some (.register .a)) := by
  decide +kernel

/-- The byte of the ROM has an origin after the step, and a byte of the boot image has none. -/
theorem fixed_origin_iff_moved_of_choosing :
    let byte : Place := .rom 0x100 0x0100
    let requests : List Request := [.step]
    (∀ request ∈ requests, request.isRow = false) ∧
      (choosing.session requests).1.HasOrigin byte = true ∧
      choosing.HasOrigin (.boot 0) = false ∧ choosing.Spares (.boot 0) requests ∧
      (choosing.session requests).1.HasOrigin (.boot 0) = false := by
  intro byte requests
  have single : ∀ request ∈ requests, request.isRow = false := by
    simp [requests, Request.isRow]
  obtain ⟨here, deeds, -⟩ := choosing_step
  have moved : choosing.attributedIn byte (choosing.HasOrigin byte) requests = true := by
    rw [attributedIn_step here, deeds]
    rfl
  have without : choosing.HasOrigin (.boot 0) = false := rfl
  have spares : choosing.Spares (.boot 0) requests := by
    refine ⟨?_, ?_, trivial⟩
    · intro deed mem
      have steps : deed ∈ choosing.deedsOfStep := mem
      rw [deeds, List.mem_singleton] at steps
      rw [steps]
      intro moved same
      cases same
    · rintro cartridge notes ⟨⟩
  obtain ⟨told, -⟩ := fixed_origin_iff_moved choosing requests single byte rfl
  obtain ⟨-, spared⟩ := fixed_origin_iff_moved choosing requests single (.boot 0) rfl
  exact ⟨single, told.trans moved, without, spares, (spared without spares).1⟩

/-- The accumulator is moved to a byte that no store can change, and from then on the byte has an
origin: what is moved from there is put down to the accumulator, which holds another byte. -/
theorem rom_byte_has_origin :
    let byte : Place := .rom 0x100 0x0100
    let last := (choosing.session [.step]).1
    choosing.HasOrigin byte = false ∧
      (∃ cell, last.cell? byte = some cell ∧ cell.value = 0xDD ∧
        cell.note.origin = some (.register .a)) ∧
      last.ledger.root (System.present last.bus) byte = .register .a := by
  intro byte last
  obtain ⟨-, -, shown⟩ := choosing_step
  obtain ⟨cell, present, is⟩ := Option.map_eq_some_iff.mp shown
  have here : last.cell? byte = some cell := present
  obtain ⟨value, origin⟩ := Prod.mk.inj is
  have found : System.present last.bus byte = true := by
    rw [← cell?_isSome, here]
    rfl
  refine ⟨rfl, ⟨cell, here, value, origin⟩, ?_⟩
  unfold Ledger.root Ledger.origin?
  rw [if_pos found, ← cell?_eq here, origin]
  rfl

end Machine

end Handheld
