import Handheld.Proofs.HalfBytes
import Handheld.Runner.Run

/-!
# The controller that the header asks for

A header asks for a kind of controller, and a cartridge can tell whether it has one of that kind.
Fresh from its image it always has. Neither the header nor the kind of the controller changes by
what is stored, done or reset (`Machine.board_handle`), so the two disagree only after somebody has
put in another controller or another cartridge. No header asks for a flash cartridge, so with one of
these they always disagree.

A run checks a cartridge right after it was built from its image. What it logs then can never be
that the controller is the wrong one (`Runner.silent_load`).
-/

set_option autoImplicit false

namespace Handheld

/-! ## Cartridges -/

namespace Cartridge

/-- The check looks at the header and at the kind of the controller only. -/
theorem checkController_congr {first second : Cartridge} (header : first.header = second.header)
    (kind : first.controller.kind = second.controller.kind) :
    first.checkController = second.checkController := by
  unfold checkController
  rw [header, kind]

/-- A cartridge that is made from an image has the controller that its header asks for. -/
theorem checkController_of_ofImage {image : Array UInt8} {cartridge : Cartridge}
    (made : ofImage image = .ok cartridge) : cartridge.checkController = .ok () :=
  if_pos (fresh_of_ofImage made).1.symm

/-- No header asks for a flash cartridge, so one that is installed does not match. -/
theorem checkController_install_flash (cartridge : Cartridge) (card : FlashCart) :
    (cartridge.install (.flash card)).checkController =
      .error (.controllerMismatch cartridge.header.expectedController .flash) :=
  if_neg cartridge.header.expectedController_ne_flash

end Cartridge

/-! ## Machines -/

/-- What can be done to a machine: something is asked of it, or a byte is stored behind its bus
without a look at the addresses. -/
inductive Handling where
  | ask (request : Request)
  | store (place : Place) (value : UInt8)

/-- Whether cartridge and controller stay in the machine. -/
def Handling.keepsBoard : Handling → Bool
  | .ask (.swap _ _) | .ask (.install _) => false
  | _ => true

namespace Machine

/-- The machine after one thing that is done to it. -/
def handle (m : Machine) : Handling → Machine
  | .ask request => (m.perform request).1
  | .store place value => m.within fun s => { s with bus := s.bus.store place value }

/-- The machine after all that is done to it, one after the other. -/
def handleAll (m : Machine) (handlings : List Handling) : Machine := handlings.foldl handle m

/-- A board of which nothing has been exchanged. -/
def SameBoard (first second : Cartridge) : Prop :=
  second.header = first.header ∧ second.controller.kind = first.controller.kind

/-- Unless the controller or the cartridge is exchanged, both are of the kind they were. -/
theorem board_handle (m : Machine) {handling : Handling} (keeps : handling.keepsBoard = true) :
    SameBoard m.bus.cartridge (m.handle handling).bus.cartridge := by
  have store : ∀ {board : Cartridge}, SameBoard m.bus.cartridge board → ∀ place value,
      SameBoard m.bus.cartridge (board.store place value) := by
    intro board same place value
    exact ⟨(board.store_header place value).trans same.1,
      (board.kind_store place value).trans same.2⟩
  cases handling with
  | store place value =>
    show SameBoard m.bus.cartridge (m.bus.store place value).cartridge
    rw [m.bus.store_cartridge]
    exact store ⟨rfl, rfl⟩ place value
  | ask request =>
    apply perform_of_lasting (Hardware.lasting_of_cartridge store) ⟨rfl, rfl⟩
    intro renews
    cases request with
    | reset =>
      show SameBoard m.bus.cartridge m.reset.bus.cartridge
      rw [m.reset_keeps.1]
      exact ⟨rfl, rfl⟩
    | swap | install => cases keeps
    | _ => cases renews

/-- Handlings that keep the board keep its header and its kind of controller. -/
theorem board_handleAll (m : Machine) {handlings : List Handling}
    (keep : ∀ handling ∈ handlings, handling.keepsBoard = true) :
    SameBoard m.bus.cartridge (m.handleAll handlings).bus.cartridge := by
  induction handlings generalizing m with
  | nil => exact ⟨rfl, rfl⟩
  | cons handling handlings ih =>
    obtain ⟨header, kind⟩ := m.board_handle (keep handling List.mem_cons_self)
    obtain ⟨later, last⟩ := ih (m.handle handling) fun next member =>
      keep next (List.mem_cons_of_mem _ member)
    exact ⟨later.trans header, last.trans kind⟩

end Machine

/-! ## Runs -/

namespace Runner

variable {σ α β : Type}

/-- Nothing in the log tells of a wrong controller. -/
def Untroubled (log : Array RunEvent) : Prop := ∀ error, .controllerMismatch error ∉ log

/-- An action puts nothing into the log that tells of a wrong controller. The files are those of a
world that may answer as it likes and change with every access. -/
def Silent (action : RunM (StateM σ) α) : Prop :=
  ∀ (log : Array RunEvent) (world : σ), Untroubled log →
    Untroubled ((action.run.run log).run world).1.2

/-- A value puts nothing into the log. -/
theorem silent_pure (value : α) : Silent (pure value : RunM (StateM σ) α) :=
  fun _ _ untroubled => untroubled

/-- An error puts nothing into the log. -/
theorem silent_throw (error : RunError) : Silent (throw error : RunM (StateM σ) α) :=
  fun _ _ untroubled => untroubled

/-- Access to the files leaves the log alone. -/
theorem silent_lift (access : StateM σ α) : Silent (access : RunM (StateM σ) α) :=
  fun _ _ untroubled => untroubled

/-- An event that is no mismatch may be put into the log. -/
theorem silent_record {event : RunEvent} (other : ∀ error, event ≠ .controllerMismatch error) :
    Silent (record event : RunM (StateM σ) Unit) := by
  intro log world untroubled error told
  rcases Array.mem_push.mp told with before | now
  · exact untroubled error before
  · exact other error now.symm

/-- Two actions that are silent are silent one after the other. -/
theorem Silent.bind {action : RunM (StateM σ) α} {next : α → RunM (StateM σ) β}
    (first : Silent action) (after : ∀ value, Silent (next value)) : Silent (action >>= next) := by
  intro log world untroubled
  have quiet := first log world untroubled
  let outcome := (action.run.run log).run world
  show Untroubled (((ExceptT.bindCont next outcome.1.1).run outcome.1.2).run outcome.2).1.2
  cases ended : outcome.1.1 with
  | error error => exact quiet
  | ok value => exact after value outcome.1.2 outcome.2 quiet

/-- An action after a value is silent if it is. -/
theorem silent_pure_bind {next : α → RunM (StateM σ) β} {value : α} (after : Silent (next value)) :
    Silent (pure value >>= next) := by
  rw [pure_bind]
  exact after

/-- Events that are no mismatches may be put into the log. -/
theorem silent_records {events : List RunEvent}
    (other : ∀ event ∈ events, ∀ error, event ≠ .controllerMismatch error) :
    Silent (events.forM record : RunM (StateM σ) Unit) := by
  induction events with
  | nil => exact silent_pure ()
  | cons event events ih =>
    refine (silent_record (other event List.mem_cons_self)).bind fun _ => ?_
    exact ih fun later member => other later (List.mem_cons_of_mem _ member)

/-- Reading a file is silent. -/
theorem silent_readFile (files : FileAccess (StateM σ)) (role : FileRole) (path : String) :
    Silent (readFile files role path) := by
  refine (silent_lift (files.read path)).bind fun result => ?_
  cases result with
  | ok bytes => exact silent_pure bytes
  | error cause => exact silent_throw _

/-- A file is read and its name goes into the log. -/
theorem silent_noted (files : FileAccess (StateM σ)) (role : FileRole) (path : String)
    {event : Array UInt8 → RunEvent}
    (other : ∀ bytes error, event bytes ≠ .controllerMismatch error)
    {next : Array UInt8 → RunM (StateM σ) β} (after : ∀ bytes, Silent (next bytes)) :
    Silent (do
      let bytes ← readFile files role path
      record (event bytes)
      next bytes) := by
  refine (silent_readFile files role path).bind fun bytes => ?_
  exact (silent_record (other bytes)).bind fun _ => after bytes

/-- There is nothing to say about the controller of a cartridge that was just built. -/
theorem ne_mismatch_of_ofImage {image : Array UInt8} {cartridge : Cartridge}
    (made : Cartridge.ofImage image = .ok cartridge) :
    ∀ event ∈ cartridgeEvents cartridge, ∀ error, event ≠ .controllerMismatch error := by
  intro event told error
  unfold cartridgeEvents at told
  rw [Cartridge.checkController_of_ofImage made] at told
  grind

/-- Loading the files of a run is silent. -/
theorem silent_load (files : FileAccess (StateM σ)) (options : RunOptions) :
    Silent (load files options) := by
  refine (silent_readFile files .rom options.rom).bind fun image => ?_
  cases made : Cartridge.ofImage image with
  | error cause => exact silent_throw _
  | ok cartridge =>
    refine silent_pure_bind ((silent_records (ne_mismatch_of_ofImage made)).bind fun _ => ?_)
    rcases options.bootRom with _ | path
    on_goal 1 => refine silent_pure_bind ?_
    on_goal 2 => refine silent_noted files .bootRom path (by simp) fun boot => silent_pure_bind ?_
    -- With a boot program or without one, the card is put in last.
    all_goals
      cases options.flashImage with
      | none => exact silent_pure _
      | some path => exact silent_noted files .flashImage path (by simp) fun image => silent_pure _

end Runner

namespace Machine

open Runner

/-- A cartridge fresh from its image has the controller that its header asks for, and keeps it
through all that is done to the machine, as long as neither the controller nor the cartridge is
exchanged: no write changes the kind of a controller. So nothing that loading an image logs tells of
a wrong controller, whatever the files hold. Once a flash cartridge has been put in the check fails,
for every image, and goes on to fail. -/
theorem mismatch_takes_an_exchange :
    (∀ (image : Array UInt8) (m : Machine), Cartridge.ofImage image = .ok m.bus.cartridge →
      ∀ handlings : List Handling, (∀ handling ∈ handlings, handling.keepsBoard = true) →
        let board := (m.handleAll handlings).bus.cartridge
        board.checkController = .ok () ∧ board.controller.kind = m.bus.cartridge.controller.kind ∧
          ∀ (card : FlashCart) (later : List Handling),
            (∀ handling ∈ later, handling.keepsBoard = true) →
            let flashed := ((m.handleAll handlings).install (.flash card)).handleAll later
            flashed.bus.cartridge.checkController =
              .error (.controllerMismatch m.bus.cartridge.header.expectedController .flash)) ∧
    ∀ {σ : Type} (files : FileAccess (StateM σ)) (options : RunOptions) (world : σ),
      let log := (((load files options).run.run #[]).run world).1.2
      ∀ error, .controllerMismatch error ∉ log := by
  constructor
  · intro image m made handlings keep board
    obtain ⟨header, kind⟩ := m.board_handleAll keep
    refine ⟨?_, kind, ?_⟩
    · rw [Cartridge.checkController_congr header kind]
      exact Cartridge.checkController_of_ofImage made
    · intro card later keepLater flashed
      have same := ((m.handleAll handlings).install (.flash card)).board_handleAll keepLater
      rw [Cartridge.checkController_congr same.1 same.2, ← header]
      exact board.checkController_install_flash card
  · intro σ files options world log
    exact silent_load files options #[] world (by simp [Untroubled])

/-- A cartridge with a clock is told to show a clock register and bank 7F, steps and is reset. It
passes the check until the flash cartridge comes, and loading it together with a card is silent. -/
theorem mismatch_takes_an_exchange_of_clock :
    let handlings : List Handling :=
      [.ask (.write 0x4000 0x08), .store (.rom 0 0x2000) 0x7F, .ask .step, .ask .reset]
    let directory : Directory := ⟨[("clock.gb", clockImage), ("card.img", #[0x5A])]⟩
    let options : RunOptions := { rom := "clock.gb", flashImage := some "card.img" }
    ∃ cartridge, Cartridge.ofImage clockImage = .ok cartridge ∧
      let last := (assemble cartridge #[]).handleAll handlings
      let flashed := (last.install (.flash {})).handleAll [.store (.rom 0 0x2000) 0x01]
      last.bus.cartridge.checkController = .ok () ∧
        flashed.bus.cartridge.checkController = .error (.controllerMismatch .mbc3Clock .flash) ∧
        .controllerMismatch (.controllerMismatch .mbc3Clock .flash) ∉
          (((load Directory.access options).run.run #[]).run directory).1.2 := by
  intro handlings directory options
  obtain ⟨cartridge, made, clock⟩ : ∃ cartridge, Cartridge.ofImage clockImage = .ok cartridge ∧
      cartridge.header.expectedController = .mbc3Clock := by
    obtain ⟨header, parsed, type, -⟩ := parse_clockImage
    have clock : header.expectedController = .mbc3Clock := by
      simp [Header.expectedController, type]
    exact ⟨_, Cartridge.ofImage_of_parse parsed, clock⟩
  refine ⟨cartridge, made, ?_⟩
  intro last flashed
  obtain ⟨checks, silent⟩ := mismatch_takes_an_exchange
  obtain ⟨passes, -, fails⟩ := checks clockImage (assemble cartridge #[]) made handlings (by decide)
  refine ⟨passes, ?_, silent Directory.access options directory _⟩
  rw [← clock]
  exact fails {} [.store (.rom 0 0x2000) 0x01] (by decide)

end Machine

end Handheld
