import Handheld.Machine

/-!
# Sessions

A session is a list of requests that someone outside puts to a machine, one after
the other. Every request has a reply, and after each of them an observer may also
look at the captured serial output, at the line that describes the state, and at
the events that the request has added to the journal.

The dump and the cells themselves are no part of what is observed here: they show
what is on record about the bytes, and a session is about what a program and its
surroundings can see.
-/

set_option autoImplicit false

namespace Handheld

/-- What can be asked of a machine from outside. A byte that is written comes from nowhere
in particular, while one that is moved has its move booked. With a cartridge goes what
is on record about it. -/
inductive Request where
  | reset
  | step
  | run (limit : Option UInt64)
  | stepFrame
  | read (address : UInt16)
  | write (address : UInt16) (value : UInt8)
  | decode (address : UInt16)
  | execute (operation : Operation)
  | raiseInterrupt (mask : UInt8)
  | serviceInterrupt (vector : UInt16)
  | mark (place : Place) (usage : Usage)
  | markOrigin (place : Place) (usage : Usage)
  | move (destination source : Place)
  | requestQuit
  | swap (cartridge : Cartridge) (notes : CartridgeNotes)
  | install (controller : Controller)

/-- What a request gives back: nothing, the cycles of a step, the reason for the end of a
run, whether a frame could be stepped through, the byte read, the instruction decoded,
or the cartridge that was inserted before. -/
inductive Reply where
  | done
  | stepped (result : Except StepError UInt32)
  | stopped (result : Except StepError StopReason)
  | framed (result : Except StepError Unit)
  | byte (value : UInt8)
  | decoded (operation : Operation)
  | ejected (cartridge : Cartridge)

/-- What an observer sees of one request: what it gave back, every byte that left through
the serial interface so far, the line that describes the state, and the events that the
request added to the journal. -/
structure Observation where
  reply : Reply
  serialOutput : Array UInt8
  stateLine : String
  events : Array Event

namespace Machine

/-- Does what is asked for. -/
def perform (m : Machine) : Request → Machine × Reply
  | .reset => (m.reset, .done)
  | .step => (m.step.1, .stepped m.step.2)
  | .run limit => ((m.run limit).1, .stopped (m.run limit).2)
  | .stepFrame => (m.stepFrame.1, .framed m.stepFrame.2)
  | .read address => (m, .byte (m.read address))
  | .write address value => (m.writeAt address value, .done)
  | .decode address => ((m.decodeAt address).1, .decoded (m.decodeAt address).2)
  | .execute operation => (m.within fun s => s.execute operation, .done)
  | .raiseInterrupt mask => (m.raiseInterrupt mask, .done)
  | .serviceInterrupt vector => (m.serviceInterrupt vector, .done)
  | .mark place usage => (m.within fun s => s.mark place usage, .done)
  | .markOrigin place usage => (m.within fun s => s.markOrigin place usage, .done)
  | .move destination source => (m.within fun s => s.move destination source, .done)
  | .requestQuit => (m.requestQuit, .done)
  | .swap cartridge notes => ((m.swap cartridge notes).1, .ejected (m.swap cartridge notes).2.1)
  | .install controller => (m.install controller, .done)

/-- Does what is asked for and notes down what an observer sees of it. -/
def observe (m : Machine) (request : Request) : Machine × Observation :=
  let (next, reply) := m.perform request
  (next,
    { reply
      serialOutput := next.serialOutput
      stateLine := next.stateLine
      events := next.journal.extract m.journal.size })

/-- Puts requests to a machine one after the other. -/
def session (m : Machine) : List Request → Machine × List Observation
  | [] => (m, [])
  | request :: requests =>
    let (next, observation) := m.observe request
    let (last, observations) := session next requests
    (last, observation :: observations)

/-- The machine after a number of steps. -/
def after (m : Machine) : Nat → Machine
  | 0 => m
  | n + 1 => (m.after n).step.1

/-- After no steps a machine is as it was. -/
theorem after_zero (m : Machine) : m.after 0 = m := rfl

/-- The last of so many steps comes after the others. -/
theorem after_succ (m : Machine) (n : Nat) : m.after (n + 1) = (m.after n).step.1 := rfl

/-- The first of so many steps comes before the others. -/
theorem after_step (m : Machine) (n : Nat) : m.step.1.after n = m.after (n + 1) := by
  induction n with
  | zero => rfl
  | succ n ih =>
    show (m.step.1.after n).step.1 = (m.after (n + 1)).step.1
    rw [ih]

/-- Steps may be made in two stages. -/
theorem after_add (m : Machine) (a b : Nat) : m.after (a + b) = (m.after a).after b := by
  induction b with
  | zero => rfl
  | succ b ih =>
    show (m.after (a + b)).step.1 = ((m.after a).after b).step.1
    rw [ih]

end Machine

end Handheld
