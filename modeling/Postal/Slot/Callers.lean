import Postal.Call
import Postal.Slot

/-!
# Arbitrary callers of one slot.

The slot does not choose who calls it. Here any number of callers make any of the nine calls in any
order, and every interleaving of their sections is possible. A caller that sends waits until some
receiver of the same signal takes the message, both at once, or until the slot is closed. Both ends
of every signal belong to the slot and go when it is dropped, which nobody can do who still calls
it.
-/

namespace Postal.Slot

/-- Somebody who calls the slot, and how far the call is. -/
inductive Caller where
  | opening
  /-- Waits for an assignment, or for the shutdown. -/
  | awaitingPublish
  | checkingReceived (a : Assignment)
  | acknowledging
  | awaitingProceed
  | checkingProceed
  | completing
  /-- The completion was taken, and the slot is about to be freed. -/
  | settling
  | publishing (a : Assignment)
  /-- Bound to the slot, and about to stand in line with the assignment. -/
  | offering (a : Assignment)
  | awaitingAcknowledge
  | proceeding
  | awaitingCompletion
  /-- Stands in line with a message until it is taken. -/
  | sending (m : Message)
  /-- The call has ended; only the wait for an assignment has one to return. -/
  | finished (result : Except Fault (Option Assignment))

namespace Caller

/-- The call has ended with nothing to return. -/
def finishedOk : Caller := .finished (.ok none)

/-- The message that a caller holds out. -/
def sends? : Caller → Option Message
  | .sending m => some m
  | _ => none

/-- The signal that a caller waits for. -/
def receives? : Caller → Option Signal
  | .awaitingPublish => some .published
  | .awaitingAcknowledge => some .acknowledged
  | .awaitingProceed => some .proceed
  | .awaitingCompletion => some .completed
  | _ => none

/-- A sender goes on after its message was taken. -/
def afterSend : Message → Caller
  | .completed => .settling
  | _ => .finishedOk

/-- A receiver goes on with the message it took. -/
def afterReceive : Message → Caller
  | .assignment a => .checkingReceived a
  | .proceed => .checkingProceed
  | _ => .finishedOk

/-- The end of a call whose section may be refused. -/
def afterSection (s : Slot) (next : Caller) : Except Fault Slot → Caller × Slot
  | .ok s => (next, s)
  | .error f => (.finished (.error f), s)

/-- The end of a check, which leaves the slot alone. -/
def afterCheck (s : Slot) (result : Option Assignment) : Except Fault Unit → Caller × Slot
  | .ok () => (.finished (.ok result), s)
  | .error f => (.finished (.error f), s)

/-- A wait on a signal ends by itself when the other end is gone, or when it `isOver`. -/
def afterWait? (s : Slot) (signal : Signal) (gone isOver : Bool) : Option (Caller × Slot) :=
  if gone then some (.finished (.error (s.breach (.disconnected signal))), s)
  else if isOver then some (.finished (.error .interrupted), s)
  else none

/-- The next section of a call. Waits end by themselves only when the slot is closed; the wait for
an assignment also ends once the shutdown has fired, unless an assignment is held out. -/
def step? (s : Slot) (gone fired offered : Bool) : Caller → Option (Caller × Slot)
  | .opening => some (afterSection s .finishedOk s.openUp)
  | .awaitingPublish => afterWait? s .published gone (s.closed || (fired && !offered))
  | .checkingReceived a => some (afterCheck s (some a) (s.checkReceived a))
  | .acknowledging => some (afterSection s (.sending .acknowledged) s.acknowledge)
  | .awaitingProceed => afterWait? s .proceed gone s.closed
  | .checkingProceed => some (afterCheck s none s.checkProceed)
  | .completing => some (afterSection s (.sending .completed) s.complete)
  | .settling => some (.finishedOk, s.settle)
  | .publishing a => some (afterSection s (.offering a) (s.bind a))
  | .offering a => some (.sending (.assignment a), s)
  | .awaitingAcknowledge => afterWait? s .acknowledged gone s.closed
  | .proceeding => some (afterSection s (.sending .proceed) s.proceed)
  | .awaitingCompletion => afterWait? s .completed gone s.closed
  | .sending m => afterWait? s m.signal gone s.closed
  | .finished _ => none

/-- Whether the call has ended. -/
def hasEnded : Caller → Bool
  | .finished _ => true
  | _ => false

/-- Sections and exchanges that a call has left at most. -/
def left : Caller → Nat
  | .publishing _ => 3
  | .acknowledging | .proceeding | .offering _ => 2
  | .completing => 3
  | .sending .completed => 2
  | .awaitingPublish | .awaitingProceed => 2
  | .finished _ => 0
  | _ => 1

end Caller

/-- A slot, whether the shutdown has fired, whether the slot was dropped, and everybody who has
called the slot, in the order of their calls. -/
structure Desk where
  slot : Slot
  fired : Bool
  dropped : Bool
  callers : List Caller

namespace Desk

/-- A slot that nobody has called. -/
def ofNumber (number : Nat) : Desk := ⟨.fresh number, false, false, []⟩

/-- Whether somebody holds out an assignment. -/
def offered (d : Desk) : Bool :=
  d.callers.any fun c => c.sends?.any fun m => m.signal == .published

/-- What can happen next at a slot. -/
inductive Move where
  /-- Caller `i` runs its next section. -/
  | step (i : Nat)
  /-- Caller `i` hands its message to caller `j`. -/
  | exchange (i j : Nat)
  | close
  | fire
  | join (c : Caller)
  /-- Whoever holds the slot last drops it. -/
  | drop

/-- Caller `i` runs its next section. -/
def step? (d : Desk) (i : Nat) : Option Desk := do
  let c ← d.callers[i]?
  let (c, slot) ← c.step? d.slot d.dropped d.fired d.offered
  some { d with slot, callers := d.callers.set i c }

/-- Caller `i` hands its message to caller `j`, both at once. -/
def exchange? (d : Desk) (i j : Nat) : Option Desk := do
  let m ← (← d.callers[i]?).sends?
  let signal ← (← d.callers[j]?).receives?
  if m.signal = signal ∧ d.slot.closed = false then
    some { d with callers := (d.callers.set i (Caller.afterSend m)).set j (Caller.afterReceive m) }
  else none

/-- The slot is closed. -/
def close (d : Desk) : Desk := { d with slot := d.slot.close }

/-- The shutdown fires. -/
def fire (d : Desk) : Desk := { d with fired := true }

/-- One more call begins. -/
def join (d : Desk) (c : Caller) : Desk := { d with callers := d.callers ++ [c] }

/-- The slot is dropped, when no call of it is under way. -/
def drop? (d : Desk) : Option Desk :=
  if d.callers.all Caller.hasEnded then some { d with dropped := true } else none

/-- The state after a move, if the move is possible. Nobody calls a slot that was dropped. -/
def move? (d : Desk) : Move → Option Desk
  | .step i => d.step? i
  | .exchange i j => d.exchange? i j
  | .close => if d.dropped then none else some d.close
  | .fire => some d.fire
  | .join c => if d.dropped then none else some (d.join c)
  | .drop => d.drop?

/-- The state after all the moves of a run. -/
def run? : List Move → Desk → Option Desk
  | [], d => some d
  | m :: ms, d => (d.move? m).bind (run? ms)

/-- The next move when everybody goes as far as possible: the earliest exchange between the callers
that wait longest, or else the earliest section. Each call waits at most once, so the order of the
calls is the order of the waits. -/
def advance? (d : Desk) : Option Desk :=
  let all := List.range d.callers.length
  (all.findSome? fun i => all.findSome? fun j => d.exchange? i j).orElse fun _ =>
    all.findSome? d.step?

/-- Everybody goes on until nobody can. -/
def settle (d : Desk) : Desk := runWhile advance? (total (d.callers.map Caller.left)) d

end Desk

end Postal.Slot
