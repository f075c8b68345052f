import Postal.Bounds
import Postal.Call

/-!
# A counting semaphore with tickets.

Whoever wants a permit draws a ticket, and permits are granted in the order of the tickets. Two
counters hold the queue: the next ticket to draw, and the ticket that is served next. A semaphore
may have a ceiling; a permit given back above it is refused. Closing is for ever: nothing is granted
afterwards, and whoever waits is sent away.

The operations below are each one uninterrupted section. An acquisition is two of them, since the
caller may have to wait in between: `arrive`, and later `recheck`.
-/

namespace Postal

/-- Permits that are free, the two ends of the queue, whether it is closed, and the most permits it
may hold. -/
structure Semaphore where
  permits : Nat
  nextTicket : Nat
  nowServing : Nat
  closed : Bool
  ceiling : Nat
  deriving DecidableEq, Repr

namespace Semaphore

/-- A semaphore without a ceiling of its own. -/
def ofPermits (permits : Nat) : Semaphore := ⟨permits, 0, 0, false, wordMax⟩

/-- A semaphore that never holds more than `ceiling` permits, at the start neither. -/
def bounded (permits ceiling : Nat) : Semaphore := ⟨min permits ceiling, 0, 0, false, ceiling⟩

/-- How many tickets are drawn and not served. -/
def queued (s : Semaphore) : Nat := s.nextTicket - s.nowServing

/-- A ticket can be granted when its turn has come and a permit is free. -/
def grants (s : Semaphore) (ticket : Nat) : Bool := s.nowServing == ticket && 0 < s.permits

/-- The next ticket is served: a permit leaves. -/
def grant (s : Semaphore) : Semaphore :=
  { s with permits := s.permits - 1, nowServing := s.nowServing + 1 }

/-- How the first section of an acquisition ends. -/
inductive Arrival where
  | refused
  | granted (ticket : Nat)
  | waits (ticket : Nat)
  deriving DecidableEq, Repr

/-- A caller enters: a closed semaphore sends it away, otherwise it draws a ticket and is served at
once if it may. -/
def arrive (s : Semaphore) : Arrival × Semaphore :=
  if s.closed then (.refused, s)
  else
    let ticket := s.nextTicket
    let s := { s with nextTicket := ticket + 1 }
    if s.grants ticket then (.granted ticket, s.grant) else (.waits ticket, s)

/-- A waiting caller looks again. There is no answer while it has to go on waiting. -/
def recheck (s : Semaphore) (ticket : Nat) : Option (Except Fault Nat × Semaphore) :=
  if s.closed then some (.error .interrupted, s)
  else if s.grants ticket then some (.ok ticket, s.grant)
  else none

/-- Takes a permit only if one is free and nobody is queued for it. -/
def tryAcquire (s : Semaphore) : Bool × Semaphore :=
  if s.closed || s.permits == 0 || 0 < s.queued then (false, s)
  else
    (true, { s with
      permits := s.permits - 1, nextTicket := s.nextTicket + 1, nowServing := s.nowServing + 1 })

/-- Gives a permit back. -/
def release (s : Semaphore) : Except Fault Semaphore :=
  if s.ceiling ≤ s.permits then .error (.overflow s.ceiling)
  else .ok { s with permits := s.permits + 1 }

/-- Gives a permit back, and the semaphore stays as it is if that is refused. -/
def releaseOrKeep (s : Semaphore) : Semaphore :=
  match s.release with
  | .ok s => s
  | .error _ => s

/-- Nothing is granted from now on. -/
def close (s : Semaphore) : Semaphore := { s with closed := true }

/-! ## Acquiring in two steps. -/

/-- Where an acquisition stands: before its first section, or waiting with a ticket. -/
inductive Acquiring where
  | arriving
  | queued (ticket : Nat)
  deriving DecidableEq, Repr

/-- The next step of an acquisition; its result is the ticket that was served. -/
def acquire? (s : Semaphore) :
    Acquiring → Option (Progress Acquiring (Except Fault Nat) × Semaphore)
  | .arriving =>
    match s.arrive with
    | (.refused, s) => some (.ended (.error .interrupted), s)
    | (.granted ticket, s) => some (.ended (.ok ticket), s)
    | (.waits ticket, s) => some (.onward (.queued ticket), s)
  | .queued ticket => (s.recheck ticket).map fun (r, s) => (.ended r, s)

/-- An acquisition takes at most this many steps. -/
def Acquiring.left : Acquiring → Nat
  | .arriving => 2
  | .queued _ => 1

end Semaphore

end Postal
