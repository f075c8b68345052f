import Postal.Event

/-!
# A bounded event log.

Keeps the most recent events. A full log drops its oldest event before it stores the new one; a log
bounded by zero is full even when it is empty, so it still holds the event that came last.
-/

namespace Postal

/-- The events kept so far, oldest first, and how many may be kept. -/
structure EventLog where
  bound : Nat
  events : List TimedEvent

namespace EventLog

/-- A log without events. -/
def empty (bound : Nat) : EventLog := ⟨bound, []⟩

/-- Stores an event; a full log drops its oldest one first. -/
def record (log : EventLog) (e : TimedEvent) : EventLog :=
  let kept := if log.bound ≤ log.events.length then log.events.drop 1 else log.events
  { log with events := kept ++ [e] }

/-- Stores one event after another. -/
def recordAll (log : EventLog) (es : List TimedEvent) : EventLog := es.foldl record log

/-- The stored events without their times. -/
def kinds (log : EventLog) : List Event := log.events.map (·.event)

end EventLog

end Postal
