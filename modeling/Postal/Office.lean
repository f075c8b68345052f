import Postal.Event
import Postal.Gate
import Postal.Pool
import Postal.Scale
import Postal.Slot

/-!
# The office.

One gate, one pool of workers, one scale and a slot per worker. What people in the office see
besides is the clock, whether the shutdown has fired, and the log of events; together these are the
premises.
-/

namespace Postal

/-- The facilities of an office, and how many milliseconds a simulated minute lasts. -/
structure Office where
  gate : Gate
  pool : Pool
  scale : Scale
  slots : List Slot
  minute : Nat
  deriving DecidableEq, Repr

namespace Office

/-- An office before the first customer and the first worker. -/
def furnish (capacity workers minute : Nat) : Office where
  gate := .ofCapacity capacity
  pool := .ofWorkers workers
  scale := .fresh
  slots := (List.range workers).map .fresh
  minute := minute

/-- How many workers the office is for. -/
def workerCount (o : Office) : Nat := o.slots.length

end Office

/-- An office at work: its facilities, whether the shutdown has fired, the clock in milliseconds,
and everything that was announced, in order. -/
structure Premises extends Office where
  fired : Bool
  clock : Nat
  log : List TimedEvent
  deriving DecidableEq, Repr

namespace Premises

/-- An office that opens at a point in time. -/
def opening (o : Office) (clock : Nat) : Premises := { o with fired := false, clock, log := [] }

/-- An event is announced. -/
def record (p : Premises) (e : Event) : Premises := { p with log := p.log ++ [⟨p.clock, e⟩] }

/-- The events announced so far, in order. -/
def events (p : Premises) : List Event := p.log.map (·.event)

/-- The premises with another state of a slot. -/
def setSlot (p : Premises) (worker : Nat) (s : Slot) : Premises :=
  { p with slots := p.slots.set worker s }

/-- Whether the slot of a worker is closed. -/
def isSlotClosed (p : Premises) (worker : Nat) : Bool := (p.slots[worker]?).any (·.closed)

/-- Runs a section of the slot of a worker. Without such a slot there is nothing to run. -/
def section? (p : Premises) (worker : Nat) (run : Slot → Except Fault Slot) :
    Option (Except Fault Unit × Premises) := do
  let s ← p.slots[worker]?
  match run s with
  | .ok s => some (.ok (), p.setSlot worker s)
  | .error f => some (.error f, p)

end Premises

end Postal
