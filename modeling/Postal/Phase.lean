/-!
# Phases of a slot.

The six phases that a worker's slot goes through in one service, and the four signals that the two
sides exchange on it.
-/

namespace Postal

/-- Where the service at a slot stands. -/
inductive Phase where
  | idle
  | awaitingPublish
  | published
  | workerAcknowledged
  | executingTask
  | completed
  deriving DecidableEq, Repr

namespace Phase

/-- Every phase, in the order of one service. -/
def all : List Phase :=
  [.idle, .awaitingPublish, .published, .workerAcknowledged, .executingTask, .completed]

/-- The phase after this one in the cycle of services. -/
def next : Phase → Phase
  | .idle => .awaitingPublish
  | .awaitingPublish => .published
  | .published => .workerAcknowledged
  | .workerAcknowledged => .executingTask
  | .executingTask => .completed
  | .completed => .idle

/-- The phase as it is named in the text of a violation. -/
def title : Phase → String
  | .idle => "Idle"
  | .awaitingPublish => "AwaitingPublish"
  | .published => "Published"
  | .workerAcknowledged => "WorkerAcknowledged"
  | .executingTask => "ExecutingTask"
  | .completed => "Completed"

/-- Whether a customer is bound to a slot in this phase. -/
def hasCustomer : Phase → Bool
  | .idle | .awaitingPublish => false
  | _ => true

end Phase

/-- What is exchanged between the two sides of a slot, in the order of one service. -/
inductive Signal where
  | published
  | acknowledged
  | proceed
  | completed
  deriving DecidableEq, Repr

/-- The signal as it is named in the text of a violation. -/
def Signal.title : Signal → String
  | .published => "published"
  | .acknowledged => "acknowledged"
  | .proceed => "proceed"
  | .completed => "completed"

end Postal
