import Postal.Json.Decoder
import Postal.Json.Value
import Postal.Phase

/-!
# Phases in JSON.

A phase is written as its name in lower case with underscores.
-/

namespace Postal.Phase

/-- The name of a phase in JSON. -/
def jsonName : Phase → String
  | .idle => "idle"
  | .awaitingPublish => "awaiting_publish"
  | .published => "published"
  | .workerAcknowledged => "worker_acknowledged"
  | .executingTask => "executing_task"
  | .completed => "completed"

/-- A phase as JSON. -/
def toJson (p : Phase) : Json.Value := .string p.jsonName

/-- A phase from JSON. -/
def decoder : Json.Decoder Phase := Json.oneOf (all.map fun p => (p.jsonName, p))

end Postal.Phase
