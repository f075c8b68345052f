import Postal.Office.Visiting
import Postal.Office.Working

/-!
# The floor: everybody in the office.

Customers, workers and whoever closes the office, in the order in which they came. An interleaving
is a list of moves, and every interleaving is possible that takes only steps that are there. An
exchange between two people is one move of both.
-/

namespace Postal

/-- Where somebody stands who closes the office: the gate first, then the pool, the scale and the
slots in their order. -/
inductive Closing where
  | gate
  | pool (position : Pool.Closing)
  | scale
  | slot (worker : Nat)
  | ended
  deriving DecidableEq, Repr

namespace Closing

/-- The next step of closing the office, which never waits. -/
def step? (p : Premises) : Closing → Option (Closing × Premises)
  | .gate => some (.pool .aggregate, { p with gate := p.gate.close })
  | .pool position =>
    let (progress, closed) := p.pool.close position
    some (progress.within .pool fun _ => .scale, { p with pool := closed })
  | .scale => some (.slot 0, { p with scale := p.scale.close })
  | .slot worker =>
    match p.slots[worker]? with
    | some s => some (.slot (worker + 1), p.setSlot worker s.close)
    | none => some (.ended, p)
  | .ended => none

end Closing

/-- Somebody in the office. -/
inductive Person where
  | customer (c : Customer) (position : Visiting)
  | worker (id : Nat) (position : Working)
  | closer (position : Closing)
  deriving DecidableEq, Repr

namespace Person

/-- A customer comes. -/
def arrives (c : Customer) : Person := .customer c .start

/-- A worker starts its shift. -/
def starts (id : Nat) : Person := .worker id .start

/-- Somebody starts to close the office. -/
def closes : Person := .closer .gate

/-- The next step of a person; `offered` tells for a worker whether an assignment is held out to it.
-/
def step? (p : Premises) (offered : Nat → Bool) : Person → Option (Person × Premises)
  | .customer c v => (v.step? c p).map fun (v, p) => (.customer c v, p)
  | .worker id w => (w.step? id p (offered id)).map fun (w, p) => (.worker id w, p)
  | .closer k => (k.step? p).map fun (k, p) => (.closer k, p)

/-- The event that the person is about to announce. -/
def emits? : Person → Option Event
  | .customer c v => v.emits? c
  | .worker id w => w.emits? id
  | .closer _ => none

/-- What a panic while announcing makes of the person. -/
def unwind? : Person → Option Person
  | .customer c v => (v.unwind? c).map (.customer c)
  | .worker id w => (w.unwind? id).map (.worker id)
  | .closer _ => none

/-- The message that the person holds out, and the slot on which. -/
def sends? : Person → Option (Nat × Message)
  | .customer c v => v.sends? c
  | .worker id w => w.sends?.map (id, ·)
  | .closer _ => none

/-- The signal that the person waits for, and the slot on which. -/
def receives? : Person → Option (Nat × Signal)
  | .customer _ v => v.receives?
  | .worker id w => w.receives?.map (id, ·)
  | .closer _ => none

/-- The person goes on after its message was taken. -/
def afterSend : Person → Person
  | .customer c v => .customer c v.afterSend
  | .worker id w => .worker id w.afterSend
  | .closer k => .closer k

/-- The person goes on with the message it took. -/
def afterReceive (m : Message) : Person → Person
  | .customer c v => .customer c v.afterReceive
  | .worker id w => .worker id (w.afterReceive m)
  | .closer k => .closer k

/-- Whether the person is done. -/
def hasEnded : Person → Bool
  | .customer _ v => v.ending?.isSome
  | .worker _ w => w.ending?.isSome
  | .closer k => k = .ended

/-- The point in time until which the person is busy. -/
def busyUntil? : Person → Option Nat
  | .worker _ w => w.busyUntil?
  | _ => none

end Person

/-- The premises and everybody in them, in the order in which they came. -/
structure Floor where
  premises : Premises
  people : List Person
  deriving DecidableEq, Repr

namespace Floor

/-- An office that opens with nobody in it. -/
def opening (o : Office) (clock : Nat) : Floor := ⟨.opening o clock, []⟩

/-- Whether somebody holds out an assignment at the slot of a worker. -/
def offered (f : Floor) (worker : Nat) : Bool :=
  f.people.any fun p =>
    match p.sends? with
    | some (slot, .assignment _) => slot == worker
    | _ => false

/-- What can happen next on the floor. -/
inductive Move where
  /-- Person `i` takes its next step. -/
  | step (i : Nat)
  /-- Person `i` hands its message to person `j`. -/
  | exchange (i j : Nat)
  /-- The announcement of person `i` ends in a panic. -/
  | unwind (i : Nat)
  /-- The shutdown fires. -/
  | fire
  /-- One more person comes. -/
  | join (p : Person)
  deriving DecidableEq, Repr

/-- Person `i` takes its next step. -/
def step? (f : Floor) (i : Nat) : Option Floor := do
  let person ← f.people[i]?
  let (person, premises) ← person.step? f.premises f.offered
  some ⟨premises, f.people.set i person⟩

/-- Person `i` hands its message to person `j`, both at once; nothing is exchanged at a closed slot.
-/
def exchange? (f : Floor) (i j : Nat) : Option Floor := do
  let sender ← f.people[i]?
  let receiver ← f.people[j]?
  let (slot, m) ← sender.sends?
  let (slot', signal) ← receiver.receives?
  if slot = slot' ∧ m.signal = signal ∧ f.premises.isSlotClosed slot = false then
    some { f with people := (f.people.set i sender.afterSend).set j (receiver.afterReceive m) }
  else none

/-- The announcement of person `i` ends in a panic. -/
def unwind? (f : Floor) (i : Nat) : Option Floor := do
  let person ← f.people[i]?
  let person ← person.unwind?
  some { f with people := f.people.set i person }

/-- The shutdown fires. -/
def fire (f : Floor) : Floor := { f with premises := { f.premises with fired := true } }

/-- One more person comes. -/
def join (f : Floor) (p : Person) : Floor := { f with people := f.people ++ [p] }

/-- The floor after a move, if the move is possible. -/
def move? (f : Floor) : Move → Option Floor
  | .step i => f.step? i
  | .exchange i j => f.exchange? i j
  | .unwind i => f.unwind? i
  | .fire => some f.fire
  | .join p => some (f.join p)

/-- The floor after all the moves of a run. -/
def run? : List Move → Floor → Option Floor
  | [], f => some f
  | m :: ms, f => (f.move? m).bind (run? ms)

end Floor

end Postal
