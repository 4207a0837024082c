import Handheld.Proofs.FlatMemory

/-!
# The discipline of the stack

Words go onto the stack by five ways: a push of a pair of registers, a call, a restart,
the entry of a handler, and the check for interrupts when it finds one to dispatch. They
come back by three: a pop of a pair, a return, and a return from a handler. In flat
memory these balance: however pushes and pops are nested, each pop gets the word that
its push put there, and the stack pointer ends where it began.

What it takes is that the bytes of the stack in use lie at distinct addresses, and one
thing more. The check for interrupts takes back the request that it dispatches, which in
flat memory is a store to FF0F, and so the stack may not reach over this byte then.
-/

set_option autoImplicit false

namespace Handheld.Stack

open FlatMemory (place place_inj)

/-! ## Ways onto the stack and off it -/

/-- A way for a word to get onto the stack. Instructions may have any length and cost. -/
inductive Entry where
  | push (index : Nat) (length : UInt8) (cycles : UInt32)
  | call (condition : Condition) (target : PlacePair) (length : UInt8) (cycles : UInt32)
  | restart (vector : UInt8) (length : UInt8) (cycles : UInt32)
  /-- The entry of a handler by itself. -/
  | handler (vector : UInt16)
  /-- A check for interrupts. -/
  | check
  deriving DecidableEq

/-- A way for a word to get off the stack. -/
inductive Exit where
  | pop (index : Nat) (length : UInt8) (cycles : UInt32)
  | ret (condition : Condition) (length : UInt8) (cycles : UInt32)
  | returnFromInterrupt (length : UInt8) (cycles : UInt32)

/-- A word that goes onto the stack, and the places from which its bytes are on record to come, if
there are any. -/
structure Saved where
  word : UInt16
  highOrigin : Option Place := none
  lowOrigin : Option Place := none

namespace Entry

/-- What the processor does. -/
def run (s : System FlatMemory) : Entry → System FlatMemory
  | .push index length cycles =>
    s.execute { action := .push (Decoder.stackPairOf index).places, length, cycles }
  | .call condition target length cycles =>
    s.execute { action := .call condition target, length, cycles }
  | .restart vector length cycles => s.execute { action := .restart vector, length, cycles }
  | .handler vector => s.enterHandler vector
  | .check => s.serviceInterrupts.1

/-- Whether a word gets onto the stack: a conditional call has to be taken, and a check has
to find an interrupt to dispatch. -/
def Happens (s : System FlatMemory) : Entry → Prop
  | .call condition _ _ _ => condition.holds s.flags = true
  | .check => s.serviceInterrupts.2 ≠ 0
  | _ => True

/-- The word to be saved: that of the pair, with the origin of each half or else the register
itself, or the address at which to continue, which comes from nowhere. -/
def saved (s : System FlatMemory) : Entry → Saved
  | .push index _ _ =>
    let pair := Decoder.stackPairOf index
    { word := s.cpu.registers.pair pair
      highOrigin := some ((s.origin? (.register pair.high)).getD (.register pair.high))
      lowOrigin := some ((s.origin? (.register pair.low)).getD (.register pair.low)) }
  | .call _ _ length _ | .restart _ length _ => { word := s.cpu.pc + length.toUInt16 }
  | .handler _ | .check => { word := s.cpu.pc }

end Entry

namespace Exit

/-- What the processor does to get a word off the stack. -/
def run (s : System FlatMemory) : Exit → System FlatMemory
  | .pop index length cycles =>
    s.execute { action := .pop (Decoder.stackPairOf index).places, length, cycles }
  | .ret condition length cycles => s.execute { action := .ret condition, length, cycles }
  | .returnFromInterrupt length cycles =>
    s.execute { action := .returnFromInterrupt, length, cycles }

/-- Whether a word gets off the stack: a conditional return has to be taken. -/
def Happens (s : System FlatMemory) : Exit → Prop
  | .ret condition _ _ => condition.holds s.flags = true
  | _ => True

/-- The processor has got a word back: in the pair that was popped, of which F keeps the
upper half of its byte only, with the origins that were saved, or as the address at
which it continues. -/
def Delivers (saved : Saved) (t : System FlatMemory) : Exit → Prop
  | .pop index _ _ =>
    let pair := Decoder.stackPairOf index
    t.cpu.registers.pair pair = (if pair = .af then saved.word &&& 0xFFF0 else saved.word) ∧
      (∀ origin, saved.highOrigin = some origin →
        t.origin? (.register pair.high) = some origin) ∧
      ∀ origin, saved.lowOrigin = some origin → t.origin? (.register pair.low) = some origin
  | .ret .. | .returnFromInterrupt .. => t.cpu.pc = saved.word

end Exit

/-! ## Nestings -/

/-- A well-nested sequence of pushes and pops. Between them instructions may be decoded, and
checks for interrupts may find nothing to dispatch. -/
inductive Nesting where
  | done
  | decode (address : UInt16) (rest : Nesting)
  | idle (rest : Nesting)
  | visit (enter : Entry) (body : Nesting) (leave : Exit) (rest : Nesting)

namespace Nesting

/-- What the processor comes to along a nesting. -/
def run : Nesting → System FlatMemory → System FlatMemory
  | .done, s => s
  | .decode address rest, s => rest.run (s.decode address).1
  | .idle rest, s => rest.run s.serviceInterrupts.1
  | .visit enter body leave rest, s => rest.run (leave.run (body.run (enter.run s)))

/-- Everything happens, and every byte that gets onto the stack lies outside the part of the
stack that is in use. -/
def Proper : Nesting → List UInt16 → System FlatMemory → Prop
  | .done, _, _ => True
  | .decode address rest, inUse, s => rest.Proper inUse (s.decode address).1
  | .idle rest, inUse, s =>
    s.serviceInterrupts.2 = 0 ∧ rest.Proper inUse s.serviceInterrupts.1
  | .visit enter body leave rest, inUse, s =>
    let back := body.run (enter.run s)
    enter.Happens s ∧ s.sp - 1 ∉ inUse ∧ s.sp - 2 ∉ inUse ∧
      body.Proper ((s.sp - 1) :: (s.sp - 2) :: inUse) (enter.run s) ∧
      leave.Happens back ∧ rest.Proper inUse (leave.run back)

/-- Whenever a check dispatches an interrupt, no byte of the stack in use is the interrupt
flag. -/
def SparesFlag : Nesting → List UInt16 → System FlatMemory → Prop
  | .done, _, _ => True
  | .decode address rest, inUse, s => rest.SparesFlag inUse (s.decode address).1
  | .idle rest, inUse, s => rest.SparesFlag inUse s.serviceInterrupts.1
  | .visit enter body leave rest, inUse, s =>
    (enter = .check → 0xFF0F ∉ inUse) ∧
      body.SparesFlag ((s.sp - 1) :: (s.sp - 2) :: inUse) (enter.run s) ∧
      rest.SparesFlag inUse (leave.run (body.run (enter.run s)))

/-- Every pop gets what its push saved. -/
def Restores : Nesting → System FlatMemory → Prop
  | .done, _ => True
  | .decode address rest, s => rest.Restores (s.decode address).1
  | .idle rest, s => rest.Restores s.serviceInterrupts.1
  | .visit enter body leave rest, s =>
    let popped := leave.run (body.run (enter.run s))
    body.Restores (enter.run s) ∧ leave.Delivers (enter.saved s) popped ∧ rest.Restores popped

end Nesting

/-! ## One push and one pop -/

/-- Of a word that is moved to a pair the pair keeps all, but for the lowest digit in AF. -/
theorem kept_stackPair (index : Nat) (value : UInt16) :
    let pair := Decoder.stackPairOf index
    word (System.kept (.register pair.high) (highByte value))
        (System.kept (.register pair.low) (lowByte value)) =
      if pair = .af then value &&& 0xFFF0 else value := by
  unfold Decoder.stackPairOf
  split
  · exact word_bytes value
  · exact word_bytes value
  · exact word_bytes value
  · exact (word_and_mask _ _).trans (congrArg (· &&& 0xFFF0) (word_bytes value))

namespace Entry

/-- What an entry that happens puts on the stack. -/
theorem pushed (enter : Entry) (s : System FlatMemory) (happens : enter.Happens s) :
    ∃ r : System FlatMemory, r.sp = s.sp ∧
      (∀ a, (enter = .check → a ≠ 0xFF0F) → r.held (place a) = s.held (place a)) ∧
      r.Pushed (enter.run s) (highByte (enter.saved s).word, (enter.saved s).highOrigin)
        (lowByte (enter.saved s).word, (enter.saved s).lowOrigin) := by
  cases enter with
  | push index length cycles =>
    let pair := Decoder.stackPairOf index
    let operation : Operation := { action := .push pair.places, length, cycles }
    have ready := s.held_ready operation
    have executed : (Entry.push index length cycles).run s = (s.ready operation).push pair.places :=
      s.execute_of_plain rfl
    have pushed := (s.ready operation).pushed_push pair
    refine ⟨s.ready operation, System.sp_of_held ready, fun a _ => ready (place a), ?_⟩
    have taken : ∀ r, (s.ready operation).taken (.register r) =
        (s.cpu.registers.get r, some ((s.origin? (.register r)).getD (.register r))) := by
      intro r
      unfold System.taken
      rw [ready]
      rfl
    rw [taken, taken] at pushed
    rw [executed]
    show (s.ready operation).Pushed _ (highByte (word _ _), _) (lowByte (word _ _), _)
    rw [highByte_word, lowByte_word]
    exact pushed
  | call condition target length cycles =>
    let operation : Operation := { action := .call condition target, length, cycles }
    have acts : (Entry.call condition target length cycles).run s =
        (s.ready operation).call condition target :=
      s.execute_of_plain rfl
    obtain ⟨paid, called, next, same⟩ := s.branch_ready operation happens 12 fun s =>
      s.pushPc.jumpTo (s.pushPc.loadWord target)
    have pushed := paid.pushed_pushPc
    rw [next] at pushed
    refine ⟨paid, System.sp_of_held same, fun a _ => same (place a), ?_⟩
    rw [acts.trans called]
    exact pushed.congr (fun _ => rfl) (System.held_jumpTo _ _)
  | restart vector length cycles =>
    let operation : Operation := { action := .restart vector, length, cycles }
    have ready := s.held_ready operation
    have executed : (Entry.restart vector length cycles).run s =
        (s.ready operation).pushPc.jumpTo vector.toUInt16 :=
      s.execute_of_plain rfl
    have next : (s.ready operation).cpu.pc = s.cpu.pc + length.toUInt16 :=
      congrArg Cpu.pc (s.ready_cpu operation)
    have pushed := (s.ready operation).pushed_pushPc
    rw [next] at pushed
    refine ⟨s.ready operation, System.sp_of_held ready, fun a _ => ready (place a), ?_⟩
    rw [executed]
    exact pushed.congr (fun _ => rfl) (System.held_jumpTo _ _)
  | handler vector =>
    exact ⟨s, rfl, fun _ _ => rfl, s.pushed_enterHandler vector⟩
  | check =>
    -- The request is taken back before the push, so a byte of the stack at FF0F is lost to it
    -- only if it was there already.
    obtain ⟨source, dispatched⟩ := s.dispatch_of_check happens
    obtain ⟨r, entered, cpu, flagged⟩ := s.wake.dispatch_eq source
    refine ⟨r, ?_, ?_, ?_⟩
    · rw [System.sp, cpu]
      rfl
    · intro a spared
      have elsewhere : place a ≠ place 0xFF0F := fun same => spared rfl (place_inj.mp same)
      rw [flagged, if_neg elsewhere]
      rfl
    · show r.Pushed s.serviceInterrupts.1 _ _
      rw [dispatched, entered]
      have pushed := r.pushed_enterHandler source.vector
      rw [cpu] at pushed
      exact pushed

end Entry

namespace Exit

/-- A return address that is still on the stack is popped. -/
theorem popPc_of_held {s r : System FlatMemory} (ready : ∀ q, r.held q = s.held q) {saved : Saved}
    (high : s.held (place (s.sp + 1)) = (highByte saved.word, saved.highOrigin))
    (low : s.held (place s.sp) = (lowByte saved.word, saved.lowOrigin)) :
    s.Popped r.popPc ∧ r.popPc.cpu.pc = saved.word := by
  obtain ⟨popped, pc⟩ := r.popped_popPc
  have sp := System.sp_of_held ready
  refine ⟨⟨?_, ?_⟩, ?_⟩
  · rw [popped.sp, sp]
  · intro a
    rw [popped.memory, ready]
  · rw [pc, ready, ready, sp, high, low]
    exact word_bytes saved.word

/-- A word that is still on the stack is popped into its register pair. -/
theorem pop_of_held {s r : System FlatMemory} (ready : ∀ q, r.held q = s.held q) {saved : Saved}
    (high : s.held (place (s.sp + 1)) = (highByte saved.word, saved.highOrigin))
    (low : s.held (place s.sp) = (lowByte saved.word, saved.lowOrigin)) (index : Nat)
    (length : UInt8) (cycles : UInt32) :
    let popped := r.pop (Decoder.stackPairOf index).places
    s.Popped popped ∧ (Exit.pop index length cycles).Delivers saved popped := by
  obtain ⟨popped, upper, lower⟩ := r.popped_pop (Decoder.stackPairOf_ne_sp index)
  have sp := System.sp_of_held ready
  unfold System.taken at upper lower
  rw [sp, ready, high] at upper
  rw [sp, ready, low] at lower
  refine ⟨⟨?_, ?_⟩, ?_, ?_, ?_⟩
  · rw [popped.sp, sp]
  · intro a
    rw [popped.memory, ready]
  · rw [System.pair_eq_held, upper, lower]
    exact kept_stackPair index saved.word
  · intro origin known
    rw [System.origin?_eq_held, upper, known]
    rfl
  · intro origin known
    rw [System.origin?_eq_held, lower, known]
    rfl

/-- What an exit that happens makes of the word on top of the stack. -/
theorem popped (leave : Exit) {s : System FlatMemory} (saved : Saved) (happens : leave.Happens s)
    (high : s.held (place (s.sp + 1)) = (highByte saved.word, saved.highOrigin))
    (low : s.held (place s.sp) = (lowByte saved.word, saved.lowOrigin)) :
    s.Popped (leave.run s) ∧ leave.Delivers saved (leave.run s) := by
  cases leave with
  | pop index length cycles =>
    let operation : Operation :=
      { action := .pop (Decoder.stackPairOf index).places, length, cycles }
    have executed : (Exit.pop index length cycles).run s =
        (s.ready operation).pop (Decoder.stackPairOf index).places :=
      s.execute_of_plain rfl
    rw [executed]
    exact pop_of_held (s.held_ready operation) high low index length cycles
  | ret condition length cycles =>
    let operation : Operation := { action := .ret condition, length, cycles }
    have acts : (Exit.ret condition length cycles).run s = (s.ready operation).ret condition :=
      s.execute_of_plain rfl
    obtain ⟨paid, returned, -, same⟩ := s.branch_ready operation happens 12 System.popPc
    rw [acts.trans returned]
    exact popPc_of_held same high low
  | returnFromInterrupt length cycles =>
    let operation : Operation := { action := .returnFromInterrupt, length, cycles }
    have executed : (Exit.returnFromInterrupt length cycles).run s =
        (s.ready operation).popPc.setInterrupts true :=
      s.execute_of_plain rfl
    obtain ⟨popped, pc⟩ := popPc_of_held (s.held_ready operation) high low
    rw [executed]
    exact ⟨⟨popped.sp, popped.memory⟩, pc⟩

end Exit

/-! ## Any nesting -/

namespace Nesting

/-- Every proper nesting that spares the request register restores what it saved and what is in
use. -/
theorem balanced (nesting : Nesting) {s : System FlatMemory} {inUse : List UInt16}
    (proper : nesting.Proper inUse s) (spares : nesting.SparesFlag inUse s) :
    nesting.Restores s ∧ (nesting.run s).sp = s.sp ∧
      ∀ a ∈ inUse, (nesting.run s).held (place a) = s.held (place a) := by
  -- What carries the induction is that the part of the stack in use is left as it is. The body of
  -- a visit has the word of the visit in use, and so hands it on to the pop.
  induction nesting generalizing s inUse with
  | done => exact ⟨trivial, rfl, fun _ _ => rfl⟩
  | decode address rest ih =>
    have same := s.held_decode address
    obtain ⟨restores, sp, kept⟩ := ih proper spares
    refine ⟨restores, sp.trans (System.sp_of_held same), ?_⟩
    intro a used
    exact (kept a used).trans (same _)
  | idle rest ih =>
    have same := s.held_of_idle proper.1
    obtain ⟨restores, sp, kept⟩ := ih proper.2 spares
    refine ⟨restores, sp.trans (System.sp_of_held same), ?_⟩
    intro a used
    exact (kept a used).trans (same _)
  | visit enter body leave rest bodyIh restIh =>
    obtain ⟨enters, highFree, lowFree, bodyProper, leaves, restProper⟩ := proper
    obtain ⟨flagFree, bodySpares, restSpares⟩ := spares
    obtain ⟨r, rSp, rHeld, pushed⟩ := enter.pushed s enters
    obtain ⟨above, top, bottom⟩ := pushed.top
    obtain ⟨bodyRestores, bodySp, bodyKept⟩ := bodyIh bodyProper bodySpares
    let back := body.run (enter.run s)
    have high : back.held (place (back.sp + 1)) =
        (highByte (enter.saved s).word, (enter.saved s).highOrigin) := by
      have used : (enter.run s).sp + 1 ∈ (s.sp - 1) :: (s.sp - 2) :: inUse := by
        rw [above, rSp]
        exact List.mem_cons_self
      rw [bodySp, bodyKept _ used, top]
    have low : back.held (place back.sp) =
        (lowByte (enter.saved s).word, (enter.saved s).lowOrigin) := by
      have used : (enter.run s).sp ∈ (s.sp - 1) :: (s.sp - 2) :: inUse := by
        rw [pushed.sp, rSp]
        exact List.mem_cons_of_mem _ List.mem_cons_self
      rw [bodySp, bodyKept _ used, bottom]
    obtain ⟨popped, delivers⟩ := leave.popped _ leaves high low
    obtain ⟨restRestores, restSp, restKept⟩ := restIh restProper restSpares
    refine ⟨⟨bodyRestores, delivers, restRestores⟩, ?_, ?_⟩
    · show (rest.run (leave.run back)).sp = s.sp
      rw [restSp, popped.sp_of_pushed pushed bodySp, rSp]
    · intro a used
      have notHigh : a ≠ r.sp - 1 := by
        rintro rfl
        rw [rSp] at used
        exact highFree used
      have notLow : a ≠ r.sp - 2 := by
        rintro rfl
        rw [rSp] at used
        exact lowFree used
      have spared : enter = .check → a ≠ 0xFF0F := by
        rintro checks rfl
        exact flagFree checks used
      have deeper : a ∈ (s.sp - 1) :: (s.sp - 2) :: inUse :=
        List.mem_cons_of_mem _ (List.mem_cons_of_mem _ used)
      calc (rest.run (leave.run back)).held (place a)
          = (leave.run back).held (place a) := restKept a used
        _ = back.held (place a) := popped.memory a
        _ = (enter.run s).held (place a) := bodyKept a deeper
        _ = r.held (place a) := pushed.elsewhere a notHigh notLow
        _ = s.held (place a) := rHeld a spared

/-- However pushes and pops are nested, each pop gets what its push saved, and the stack pointer
ends where it began, provided that the bytes in use are distinct and that none of them is the
interrupt flag when a check dispatches. -/
theorem restores_of_proper (nesting : Nesting) (s : System FlatMemory)
    (proper : nesting.Proper [] s) (spares : nesting.SparesFlag [] s) :
    nesting.Restores s ∧ (nesting.run s).sp = s.sp := by
  obtain ⟨restores, sp, -⟩ := nesting.balanced proper spares
  exact ⟨restores, sp⟩

/-! ## A pair over the interrupt flag -/

/-- A push of BC and its pop, with an interrupt in between. -/
def interruptedPush : Nesting :=
  .visit (.push 0 1 16) (.visit .check .done (.returnFromInterrupt 1 16) .done) (.pop 0 1 12) .done

/-- A processor with 0134 in BC, interrupts allowed and one of them enabled. The stack pointer and
the interrupt flag are left open. -/
def requesting (sp : UInt16) (flag : UInt8) : System FlatMemory where
  cpu :=
    { registers := ({ b := 0x01, c := 0x34 } : Registers).setPair .sp sp
      pc := 0x0100
      interruptsEnabled := true }
  bus := (({} : FlatMemory).store (place 0xFF0F) flag).store (place 0xFFFF) 0x01

section Requesting

variable {sp : UInt16} {flag : UInt8}

/-- The example state has the stack pointer it was given. -/
theorem requesting_sp : (requesting sp flag).sp = sp := word_bytes sp

/-- The example state has a word in BC. -/
theorem requesting_pair : (requesting sp flag).cpu.registers.pair .bc = 0x0134 := by
  show word 0x01 0x34 = 0x0134
  decide

/-- The example state has the requests it was given and one enabled interrupt. -/
theorem requesting_flags :
    ((requesting sp flag).held (place 0xFF0F)).1 = flag ∧
      ((requesting sp flag).held (place 0xFFFF)).1 = 0x01 := by
  have loads : ∀ p, AddressSpace.load (requesting sp flag).bus p =
      if p = place 0xFFFF then 0x01
      else if p = place 0xFF0F then flag
      else AddressSpace.load ({} : FlatMemory) p := by
    intro p
    unfold requesting
    rw [FlatMemory.load_store_place, FlatMemory.load_store_place]
  have requested := loads (place 0xFF0F)
  have enabled := loads (place 0xFFFF)
  rw [if_neg (by decide), if_pos rfl] at requested
  rw [if_pos rfl] at enabled
  exact ⟨requested, enabled⟩

/-- Pushing leaves interrupts allowed in the example state. -/
theorem requesting_allows :
    ((Entry.push 0 1 16).run (requesting sp flag)).cpu.interruptsEnabled = true := by
  let operation : Operation :=
    { action := .push (Decoder.stackPairOf 0).places, length := 1, cycles := 16 }
  let ready := (requesting sp flag).ready operation
  have executed : (Entry.push 0 1 16).run (requesting sp flag) =
      ready.push (Decoder.stackPairOf 0).places :=
    (requesting sp flag).execute_of_plain rfl
  have same := congrArg Cpu.interruptsEnabled
    (ready.push_control (Decoder.stackPairOf 0).places)
  have allowed : ready.cpu.interruptsEnabled = true := by
    unfold ready
    rw [System.ready_cpu]
    rfl
  rw [executed]
  exact same.trans allowed

/-- After the push there is a request, either the upper half of BC or one that stood before. -/
theorem requesting_dispatches (chosen : sp = 0xFF10 ∨ sp = 0xFFFE ∧ flag = 0x01) :
    let pushed := (Entry.push 0 1 16).run (requesting sp flag)
    pushed.sp = sp - 2 ∧ (pushed.held (place 0xFF0F)).1 = 0x01 ∧
      (pushed.held (place (sp - 2))).1 = 0x34 ∧
      pushed.serviceInterrupts = (pushed.wake.dispatch .vblank, 20) := by
  intro pushed
  obtain ⟨r, level, elsewhere, pushes⟩ := (Entry.push 0 1 16).pushed (requesting sp flag) trivial
  have rSp : r.sp = sp := level.trans requesting_sp
  have before : ∀ a, r.held (place a) = (requesting sp flag).held (place a) :=
    fun a => elsewhere a (by rintro ⟨⟩)
  have high := pushes.high
  have low := pushes.low
  have half : ((Entry.push 0 1 16).saved (requesting sp flag)).word = 0x0134 := requesting_pair
  rw [rSp, half] at high low
  have requested : (pushed.held (place 0xFF0F)).1 = 0x01 := by
    obtain rfl | ⟨rfl, rfl⟩ := chosen
    · exact congrArg Prod.fst high
    · rw [pushes.elsewhere _ (by rw [rSp]; decide) (by rw [rSp]; decide), before]
      exact requesting_flags.1
  have enabled : (pushed.held (place 0xFFFF)).1 = 0x01 := by
    have above : 0xFFFF ≠ r.sp - 1 ∧ 0xFFFF ≠ r.sp - 2 := by
      rw [rSp]
      obtain rfl | ⟨rfl, -⟩ := chosen <;> decide
    rw [pushes.elsewhere _ above.1 above.2, before]
    exact requesting_flags.2
  have pending : pushed.pending = 1 := by
    rw [System.pending_eq, requested, enabled]
    rfl
  refine ⟨by rw [pushes.sp, rSp], requested, congrArg Prod.fst low, ?_⟩
  rw [System.serviceInterrupts_eq, pending, if_neg (by decide), if_pos requesting_allows]
  rfl

/-- The example nesting is proper. -/
theorem proper_requesting (chosen : sp = 0xFF10 ∨ sp = 0xFFFE ∧ flag = 0x01) :
    interruptedPush.Proper [] (requesting sp flag) := by
  obtain ⟨pushedSp, -, -, dispatched⟩ := requesting_dispatches chosen
  have takesTime : (20 : UInt32) ≠ 0 := by decide
  have high : sp - 2 - 1 ∉ [sp - 1, sp - 2] := by
    obtain rfl | ⟨rfl, -⟩ := chosen <;> decide
  have low : sp - 2 - 2 ∉ [sp - 1, sp - 2] := by
    obtain rfl | ⟨rfl, -⟩ := chosen <;> decide
  refine ⟨trivial, List.not_mem_nil, List.not_mem_nil, ⟨?_, ?_, ?_, trivial, trivial, trivial⟩,
    trivial, trivial⟩
  · intro nothing
    rw [dispatched] at nothing
    exact takesTime nothing
  · rw [requesting_sp, pushedSp]
    exact high
  · rw [requesting_sp, pushedSp]
    exact low

end Requesting

/-- A handler that returns at once leaves the stack as it was, but for the request taken back. -/
theorem held_of_interrupt {t : System FlatMemory} {source : Interrupt}
    (dispatched : t.serviceInterrupts = (t.wake.dispatch source, 20)) :
    let back := (Exit.returnFromInterrupt 1 16).run (Entry.check.run t)
    back.sp = t.sp ∧ ∀ a, a ≠ t.sp - 1 → a ≠ t.sp - 2 →
      back.held (place a) =
        if place a = place 0xFF0F then
          ((t.held (place a)).1 &&& 0x1F &&& ~~~ source.mask &&& 0x1F, (t.held (place a)).2)
        else t.held (place a) := by
  intro back
  obtain ⟨r, entered, cpu, flagged⟩ := t.wake.dispatch_eq source
  have rSp : r.sp = t.sp := by
    unfold System.sp
    rw [cpu]
    rfl
  have pushes := r.pushed_enterHandler source.vector
  have inside : Entry.check.run t = r.enterHandler source.vector := by
    show t.serviceInterrupts.1 = _
    rw [dispatched, entered]
  rw [← inside] at pushes
  obtain ⟨-, top, bottom⟩ := pushes.top
  obtain ⟨popped, -⟩ :=
    (Exit.returnFromInterrupt 1 16).popped { word := r.cpu.pc } trivial top bottom
  refine ⟨(popped.sp_of_pushed pushes rfl).trans rSp, ?_⟩
  intro a notHigh notLow
  rw [← rSp] at notHigh notLow
  rw [popped.memory, pushes.elsewhere a notHigh notLow, flagged]
  rfl

/-- A pair that lies over the interrupt flag loses a bit to the interrupt. -/
theorem pair_lost_over_flag :
    interruptedPush.Proper [] (requesting 0xFF10 0x00) ∧
      (requesting 0xFF10 0x00).cpu.registers.pair .bc = 0x0134 ∧
      (interruptedPush.run (requesting 0xFF10 0x00)).cpu.registers.pair .bc = 0x0034 := by
  let pushed := (Entry.push 0 1 16).run (requesting 0xFF10 0x00)
  let back := (Exit.returnFromInterrupt 1 16).run (Entry.check.run pushed)
  obtain ⟨sp, flag, lower, dispatched⟩ := requesting_dispatches (.inl rfl)
  obtain ⟨level, kept⟩ := held_of_interrupt dispatched
  have backSp : back.sp = 0xFF0E := level.trans sp
  rw [sp] at kept
  have high : (back.held (place 0xFF0F)).1 = 0x00 := by
    rw [kept _ (by decide) (by decide), if_pos rfl, flag]
    rfl
  have low : (back.held (place 0xFF0E)).1 = 0x34 := by
    rw [kept _ (by decide) (by decide), if_neg (by decide)]
    exact lower
  let found : Saved :=
    { word := word 0x00 0x34
      highOrigin := (back.held (place 0xFF0F)).2
      lowOrigin := (back.held (place 0xFF0E)).2 }
  have above : (0xFF0E : UInt16) + 1 = 0xFF0F := by decide
  have top : back.held (place (back.sp + 1)) = (highByte found.word, found.highOrigin) := by
    rw [backSp, above, highByte_word]
    exact Prod.ext high rfl
  have bottom : back.held (place back.sp) = (lowByte found.word, found.lowOrigin) := by
    rw [backSp, lowByte_word]
    exact Prod.ext low rfl
  obtain ⟨-, pair, -, -⟩ := (Exit.pop 0 1 12).popped found trivial top bottom
  have runs : interruptedPush.run (requesting 0xFF10 0x00) = (Exit.pop 0 1 12).run back := rfl
  have selected : Decoder.stackPairOf 0 = .bc := rfl
  have value : word 0x00 0x34 = 0x0034 := by decide
  rw [selected, if_neg (by decide)] at pair
  refine ⟨proper_requesting (.inl rfl), requesting_pair, ?_⟩
  rw [runs, ← value]
  exact pair

/-- With the stack elsewhere the pair comes back whole. -/
theorem pair_restored_elsewhere :
    interruptedPush.Proper [] (requesting 0xFFFE 0x01) ∧
      interruptedPush.SparesFlag [] (requesting 0xFFFE 0x01) ∧
      (interruptedPush.run (requesting 0xFFFE 0x01)).cpu.registers.pair .bc = 0x0134 ∧
      (interruptedPush.run (requesting 0xFFFE 0x01)).sp = 0xFFFE := by
  have proper : interruptedPush.Proper [] (requesting 0xFFFE 0x01) :=
    proper_requesting (.inr ⟨rfl, rfl⟩)
  have spares : interruptedPush.SparesFlag [] (requesting 0xFFFE 0x01) := by
    refine ⟨?_, ⟨?_, trivial, trivial⟩, trivial⟩
    · rintro ⟨⟩
    · intro _
      rw [requesting_sp]
      decide
  obtain ⟨⟨-, ⟨pair, -, -⟩, -⟩, sp⟩ := interruptedPush.restores_of_proper _ proper spares
  exact ⟨proper, spares, pair, sp.trans requesting_sp⟩

end Nesting

end Handheld.Stack
