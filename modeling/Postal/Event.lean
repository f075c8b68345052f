import Postal.Task

/-!
# Events of an office.

Everything that can be seen from outside while customers are served: who it concerns, and the line
that a log shows for it.
-/

namespace Postal

/-- Something that happened in the office. -/
inductive Event where
  | customerCreated (customer : Nat)
  | customerAdmitted (customer : Nat)
  | customerClaimsWorker (customer worker : Nat)
  | workerCreated (worker : Nat)
  | workerIdle (worker : Nat)
  | workerAnnouncesIntent (worker customer : Nat)
  | customerAnnouncesIntent (customer worker : Nat) (task : Task)
  | taskStarted (worker customer : Nat) (task : Task)
  | taskFinished (worker customer : Nat) (task : Task)
  | customerFinished (customer : Nat) (task : Task)
  | customerDeparts (customer : Nat)
  | customerJoined (customer : Nat)
  deriving DecidableEq, Repr

namespace Event

/-- The customer that the event concerns. -/
def customer? : Event → Option Nat
  | .customerCreated c => some c
  | .customerAdmitted c => some c
  | .customerClaimsWorker c _ => some c
  | .workerCreated _ => none
  | .workerIdle _ => none
  | .workerAnnouncesIntent _ c => some c
  | .customerAnnouncesIntent c _ _ => some c
  | .taskStarted _ c _ => some c
  | .taskFinished _ c _ => some c
  | .customerFinished c _ => some c
  | .customerDeparts c => some c
  | .customerJoined c => some c

/-- The worker that the event concerns. -/
def worker? : Event → Option Nat
  | .customerClaimsWorker _ w => some w
  | .workerCreated w => some w
  | .workerIdle w => some w
  | .workerAnnouncesIntent w _ => some w
  | .customerAnnouncesIntent _ w _ => some w
  | .taskStarted w _ _ => some w
  | .taskFinished w _ _ => some w
  | _ => none

/-- The task that the event concerns. -/
def task? : Event → Option Task
  | .customerAnnouncesIntent _ _ t => some t
  | .taskStarted _ _ t => some t
  | .taskFinished _ _ t => some t
  | .customerFinished _ t => some t
  | _ => none

/-- The line that a log shows for the event. -/
def line : Event → String
  | .customerCreated c => "Customer " ++ toString c ++ " created"
  | .customerAdmitted c => "Customer " ++ toString c ++ " enters post office"
  | .customerClaimsWorker c w =>
    "Customer " ++ toString c ++ " approaches postal worker " ++ toString w
  | .workerCreated w => "Postal worker " ++ toString w ++ " created"
  | .workerIdle w => "Postal worker " ++ toString w ++ " is free"
  | .workerAnnouncesIntent w c =>
    "Postal worker " ++ toString w ++ " serving customer " ++ toString c
  | .customerAnnouncesIntent c w t =>
    "Customer " ++ toString c ++ " asks postal worker " ++ toString w ++ " to " ++ t.request
  | .taskStarted w c t =>
    "Postal worker " ++ toString w ++ " starts " ++ t.progressive ++ " for customer " ++ toString c
  | .taskFinished w c _ =>
    "Postal worker " ++ toString w ++ " finished serving customer " ++ toString c
  | .customerFinished c t => "Customer " ++ toString c ++ " finished " ++ t.progressive
  | .customerDeparts c => "Customer " ++ toString c ++ " leaves post office"
  | .customerJoined c => "Joined customer " ++ toString c

/-- The word for the kind of event, its fields left out. -/
def kind : Event → String
  | .customerCreated _ => "customer_created"
  | .customerAdmitted _ => "customer_admitted"
  | .customerClaimsWorker _ _ => "customer_claims_worker"
  | .workerCreated _ => "worker_created"
  | .workerIdle _ => "worker_idle"
  | .workerAnnouncesIntent _ _ => "worker_announces_intent"
  | .customerAnnouncesIntent _ _ _ => "customer_announces_intent"
  | .taskStarted _ _ _ => "task_started"
  | .taskFinished _ _ _ => "task_finished"
  | .customerFinished _ _ => "customer_finished"
  | .customerDeparts _ => "customer_departs"
  | .customerJoined _ => "customer_joined"

end Event

/-- An event together with the millisecond in which it was recorded. -/
structure TimedEvent where
  atMs : Nat
  event : Event
  deriving DecidableEq, Repr

end Postal
