import Postal.Fault
import Postal.Task

/-!
# The slot of a worker.

A slot keeps the phase of the running service, the customer bound to it and how many services it has
completed. The operations below are each one uninterrupted section; what the two sides exchange in
between travels in messages.

| section of the customer | section of the worker | message that follows | phase afterwards |
|---|---|---|---|
| | `openUp` | | `awaitingPublish` |
| `bind` | | assignment, to the worker | `published` |
| | `acknowledge` | acknowledged, to the customer | `workerAcknowledged` |
| `proceed` | | proceed, to the worker | `executingTask` |
| | `complete` | completed, to the customer | `completed` |
| | `settle` | | `idle` |
-/

namespace Postal

/-- What is exchanged at a slot: the assignment travels by value, the other signals carry nothing.
-/
inductive Message where
  | assignment (a : Assignment)
  | acknowledged
  | proceed
  | completed
  deriving DecidableEq, Repr

/-- The signal on which a message travels. -/
def Message.signal : Message → Signal
  | .assignment _ => .published
  | .acknowledged => .acknowledged
  | .proceed => .proceed
  | .completed => .completed

/-- The phase of the running service, the customer bound to it, the services completed, and whether
the slot is closed. -/
structure Slot where
  number : Nat
  phase : Phase
  customer : Option Nat
  served : Nat
  closed : Bool
  deriving DecidableEq, Repr

namespace Slot

/-- A slot that has seen nothing yet. -/
def fresh (number : Nat) : Slot := ⟨number, .idle, none, 0, false⟩

/-- Nothing is exchanged at the slot from now on. -/
def close (s : Slot) : Slot := { s with closed := true }

/-- The fault of a caller that breaks the protocol of this slot. -/
def breach (s : Slot) (b : Breach) : Fault := .violation s.number b

/-- Moves on to `goal`, which is only right from `needed`. -/
def turn (s : Slot) (needed goal : Phase) : Except Fault Slot :=
  if s.phase = needed then .ok { s with phase := goal }
  else .error (s.breach (.outOfTurn goal needed s.phase))

/-- The worker opens its slot for the next customer. -/
def openUp (s : Slot) : Except Fault Slot := s.turn .idle .awaitingPublish

/-- A customer binds itself to the slot, before it hands its assignment over. -/
def bind (s : Slot) (a : Assignment) : Except Fault Slot :=
  if s.phase = .awaitingPublish then
    .ok { s with phase := .published, customer := some a.customer }
  else .error (s.breach (.publishedInto a.customer s.phase))

/-- The worker makes sure that the assignment it received is the one bound to the slot. -/
def checkReceived (s : Slot) (a : Assignment) : Except Fault Unit :=
  if s.phase = .published ∧ s.customer = some a.customer then .ok ()
  else .error (s.breach (.receivedIn a.customer s.phase))

/-- The worker accepts the assignment, before it says so. -/
def acknowledge (s : Slot) : Except Fault Slot := s.turn .published .workerAcknowledged

/-- The customer lets the worker go ahead, before it says so. -/
def proceed (s : Slot) : Except Fault Slot := s.turn .workerAcknowledged .executingTask

/-- The worker makes sure that the go-ahead came in its place. -/
def checkProceed (s : Slot) : Except Fault Unit :=
  if s.phase = .executingTask then .ok () else .error (s.breach (.proceededIn s.phase))

/-- The worker is done with the task, before it says so. -/
def complete (s : Slot) : Except Fault Slot := s.turn .executingTask .completed

/-- After the completion was taken the slot is free again, and the service counts. -/
def settle (s : Slot) : Slot :=
  { s with phase := .idle, customer := none, served := s.served + 1 }

end Slot

end Postal
