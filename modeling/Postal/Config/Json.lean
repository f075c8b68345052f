import Postal.Config
import Postal.Task.Json

/-!
# Configurations in JSON.

A configuration is a record all of whose fields may be missing; the standard configuration stands in
for them. A configuration that is read as such has to be one that can be worked with.
-/

namespace Postal.Config

open Json (Decoder Value optional)

/-- A configuration as JSON. -/
def toJson (c : Config) : Value :=
  .object [("capacity", .number c.capacity), ("worker_count", .number c.workerCount),
    ("customer_count", .number c.customerCount), ("millis_per_minute", .number c.minute),
    ("seed", match c.seed with | some s => .number s | none => .null)]

/-- A configuration from JSON, whether it can be worked with or not. -/
def decoder : Decoder Config := fun n =>
  (Json.record "struct OfficeConfig"
    (optional "capacity" sizeDecoder standard.capacity <|
      optional "worker_count" sizeDecoder standard.workerCount <|
      optional "customer_count" sizeDecoder standard.customerCount <|
      optional "millis_per_minute" longDecoder standard.minute <|
      optional "seed" (Json.orNull longDecoder) standard.seed .none) n).map
    fun (capacity, workerCount, customerCount, minute, seed, _) =>
      ⟨capacity, workerCount, customerCount, minute, seed⟩

/-- Why a text is no configuration to work with. -/
inductive TextProblem where
  | unreadable (e : Json.Error)
  | invalid (p : Problem)

/-- The text of the problem. -/
def TextProblem.message : TextProblem → String
  | .unreadable e => "parse error: " ++ e.message
  | .invalid p => p.message

/-- Reads a configuration to work with. -/
def ofText (text : String) : Except TextProblem Config := do
  let c ← (Json.decode decoder text).mapError .unreadable
  c.validated.mapError .invalid

end Postal.Config
