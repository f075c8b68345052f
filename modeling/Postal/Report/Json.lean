import Postal.Config.Json
import Postal.Report.RunId

/-!
# Reports in JSON.
-/

namespace Postal.Report

open Json (Decoder Value required)

/-- A report as JSON. -/
def toJson (r : Report) : Value :=
  .object [("run_id", r.runId.toJson), ("config", r.config.toJson),
    ("visits", .array (r.visits.map Visit.toJson)),
    ("workers", .array (r.workers.map WorkerReport.toJson)),
    ("peak_scale_holders", .number r.peakScaleHolders), ("scale_waits", .number r.scaleWaits),
    ("elapsed_ms", .number r.elapsedMs)]

/-- A report from JSON. -/
def decoder : Decoder Report := fun n =>
  (Json.record "struct SimulationReport"
    (required "run_id" RunId.decoder <| required "config" Config.decoder <|
      required "visits" (Json.list Visit.decoder) <|
      required "workers" (Json.list WorkerReport.decoder) <|
      required "peak_scale_holders" sizeDecoder <| required "scale_waits" longDecoder <|
      required "elapsed_ms" Json.stamp .none) n).map
    fun (runId, config, visits, workers, peakScaleHolders, scaleWaits, elapsedMs, _) =>
      ⟨runId, config, visits, workers, peakScaleHolders, scaleWaits, elapsedMs⟩

end Postal.Report
