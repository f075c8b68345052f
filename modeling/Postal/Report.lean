import Postal.Config

/-!
# The report of a day.

Who was served by whom, in the order of the customers, and what every worker did.
-/

namespace Postal

/-- The id of a run, a number of 128 binary digits. -/
structure RunId where
  value : Nat
  deriving DecidableEq, Repr

/-- The report of a day. -/
structure Report where
  runId : RunId
  config : Config
  visits : List Visit
  workers : List WorkerReport
  peakScaleHolders : Nat
  scaleWaits : Nat
  elapsedMs : Nat
  deriving DecidableEq, Repr

namespace Report

/-- How many customers a worker says it has served; nothing is known of a worker without a report.
-/
def servedBy (r : Report) (worker : Nat) : Nat :=
  match r.workers.find? fun w => w.worker == worker with
  | some w => w.served
  | none => 0

/-- How many visits were about a task. -/
def countOf (r : Report) (t : Task) : Nat := (r.visits.filter fun v => v.customer.task = t).length

end Report

end Postal
