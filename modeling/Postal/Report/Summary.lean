import Postal.Report.Json

/-!
# The summary of a day.

What the command line prints: how many customers came and with which tasks, how long the day took,
and what every worker did. The members stand in alphabetical order.
-/

namespace Postal

/-- A worker in the summary. -/
def WorkerReport.summary (r : WorkerReport) : Json.Value :=
  .object [("served", .number r.served), ("worker", .number r.worker)]

namespace Report

/-- The summary of a report. -/
def summary (r : Report) : Json.Value :=
  .object [
    ("customers", .number r.visits.length),
    ("elapsed_ms", .number r.elapsedMs),
    ("peak_scale_holders", .number r.peakScaleHolders),
    ("run_id", r.runId.toJson),
    ("tasks", .object (Task.all.map fun t => (t.request, .number (r.countOf t)))),
    ("workers", .array (r.workers.map WorkerReport.summary))]

/-- The summary as it is printed. -/
def summaryText (r : Report) : String := r.summary.pretty ++ "\n"

end Report

end Postal
