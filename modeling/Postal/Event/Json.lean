import Postal.Event
import Postal.Json.Tagged
import Postal.Task.Json

/-!
# Events in JSON.

An event is an object that names its kind in the member `kind`; the other members are its fields.
-/

namespace Postal

open Json (Content Decoder Value Variant required variant)

namespace Event

/-- The fields of an event, in the order in which they are written. -/
def jsonFields : Event → List (String × Value)
  | .customerCreated c => [("customer", .number c)]
  | .customerAdmitted c => [("customer", .number c)]
  | .customerClaimsWorker c w => [("customer", .number c), ("worker", .number w)]
  | .workerCreated w => [("worker", .number w)]
  | .workerIdle w => [("worker", .number w)]
  | .workerAnnouncesIntent w c => [("worker", .number w), ("customer", .number c)]
  | .customerAnnouncesIntent c w t =>
    [("customer", .number c), ("worker", .number w), ("task", t.toJson)]
  | .taskStarted w c t => [("worker", .number w), ("customer", .number c), ("task", t.toJson)]
  | .taskFinished w c t => [("worker", .number w), ("customer", .number c), ("task", t.toJson)]
  | .customerFinished c t => [("customer", .number c), ("task", t.toJson)]
  | .customerDeparts c => [("customer", .number c)]
  | .customerJoined c => [("customer", .number c)]

/-- An event as JSON. -/
def toJson (e : Event) : Value := .object (("kind", .string e.kind) :: e.jsonFields)

/-- An id among the fields of an event. -/
def idField : Content → Except Json.Error Nat := Content.word "usize"

/-- A task among the fields of an event. -/
def taskField : Content → Except Json.Error Task := Content.oneOf Task.named

/-- The kinds of events with one customer. -/
def ofCustomer (name title : String) (make : Nat → Event) : Variant Event :=
  variant name ("OfficeEvent::" ++ title) (required "customer" idField .none) fun (c, _) => make c

/-- The kinds of events with one worker. -/
def ofWorker (name title : String) (make : Nat → Event) : Variant Event :=
  variant name ("OfficeEvent::" ++ title) (required "worker" idField .none) fun (w, _) => make w

/-- The kinds of events with a worker, a customer and a task. -/
def ofService (name title : String) (make : Nat → Nat → Task → Event) : Variant Event :=
  variant name ("OfficeEvent::" ++ title)
    (required "worker" idField (required "customer" idField (required "task" taskField .none)))
    fun (w, c, t, _) => make w c t

/-- Every kind of event. -/
def variants : List (Variant Event) := [
  ofCustomer "customer_created" "CustomerCreated" .customerCreated,
  ofCustomer "customer_admitted" "CustomerAdmitted" .customerAdmitted,
  variant "customer_claims_worker" "OfficeEvent::CustomerClaimsWorker"
    (required "customer" idField (required "worker" idField .none))
    fun (c, w, _) => .customerClaimsWorker c w,
  ofWorker "worker_created" "WorkerCreated" .workerCreated,
  ofWorker "worker_idle" "WorkerIdle" .workerIdle,
  variant "worker_announces_intent" "OfficeEvent::WorkerAnnouncesIntent"
    (required "worker" idField (required "customer" idField .none))
    fun (w, c, _) => .workerAnnouncesIntent w c,
  variant "customer_announces_intent" "OfficeEvent::CustomerAnnouncesIntent"
    (required "customer" idField (required "worker" idField (required "task" taskField .none)))
    fun (c, w, t, _) => .customerAnnouncesIntent c w t,
  ofService "task_started" "TaskStarted" .taskStarted,
  ofService "task_finished" "TaskFinished" .taskFinished,
  variant "customer_finished" "OfficeEvent::CustomerFinished"
    (required "customer" idField (required "task" taskField .none))
    fun (c, t, _) => .customerFinished c t,
  ofCustomer "customer_departs" "CustomerDeparts" .customerDeparts,
  ofCustomer "customer_joined" "CustomerJoined" .customerJoined]

/-- An event from JSON, where so many levels are left. -/
def decoderWithin (left : Nat) : Decoder Event :=
  Json.tagged "internally tagged enum OfficeEvent" "kind" variants left

/-- An event from JSON. -/
def decoder : Decoder Event := decoderWithin Json.depthLimit

end Event

namespace TimedEvent

/-- An event with its time as JSON. -/
def toJson (e : TimedEvent) : Value :=
  .object [("at_ms", .number e.atMs), ("event", e.event.toJson)]

/-- An event with its time from JSON. The record around the event takes one level. -/
def decoder : Decoder TimedEvent := fun n =>
  (Json.record "struct TimedEvent"
    (required "at_ms" Json.stamp
      (required "event" (Event.decoderWithin (Json.depthLimit - 1)) .none)) n).map
    fun (atMs, event, _) => ⟨atMs, event⟩

end TimedEvent

end Postal
