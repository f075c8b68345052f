import Postal.Report.Json

/-!
# What a report has to show.

The time that a day takes is enough for all its services, every stay is long enough for its service,
and a report that is read from its own text is written as the same text.
-/

namespace Postal.Report

/-- The tickets of the visits, in ascending order. -/
def tickets (r : Report) : List Nat := (r.visits.map (·.ticket)).mergeSort

/-- How long the services of some visits take together. -/
def serviceTime (r : Report) (vs : List Visit) : Nat :=
  total (vs.map fun v => r.config.serviceTime v.customer.task)

/-- Whether the day was long enough for its services: every worker serves one customer at a time,
and all share one scale. -/
def isLongEnough (r : Report) : Bool :=
  r.serviceTime r.visits ≤ r.elapsedMs * r.config.workerCount &&
    r.serviceTime (r.visits.filter fun v => v.customer.task.needsScale) ≤ r.elapsedMs

/-- By how many milliseconds a stay may seem shorter than its service, because either end of it is
rounded. -/
def slack : Nat := 2

/-- Whether every stay is as long as its service. -/
def staysAreLongEnough (r : Report) : Bool :=
  r.visits.all fun v =>
    v.admittedAt + r.config.serviceTime v.customer.task ≤ v.departedAt + slack

/-- Whether the text of the report can be read, and what is read is written in the same way. -/
def readsBack (r : Report) : Bool :=
  match Json.decode decoder r.toJson.text with
  | .ok s => s.toJson.text == r.toJson.text
  | .error _ => false

end Postal.Report
