import Postal.Event

/-!
# What the events of a day tell.

The events that concern one person, in their order. A shift is a worker's coming and then one
service after another, each of them with a single customer; a worker may be idle once more before it
goes. Nobody enters an office that is full, and in the end everybody has left.
-/

namespace Postal.Trace

/-! ## Persons. -/

/-- The events that concern a customer. -/
def customer (id : Nat) (es : List Event) : List Event := es.filter fun e => e.customer? = some id

/-- The events that concern a worker. -/
def worker (id : Nat) (es : List Event) : List Event := es.filter fun e => e.worker? = some id

/-- The events of one service. -/
def service (worker : Nat) (c : Customer) : List Event := [
  .workerIdle worker,
  .customerClaimsWorker c.id worker,
  .workerAnnouncesIntent worker c.id,
  .customerAnnouncesIntent c.id worker c.task,
  .taskStarted worker c.id c.task,
  .taskFinished worker c.id c.task]

/-- The events of a shift in which these customers are served. -/
def shift (worker : Nat) (cs : List Customer) : List Event :=
  .workerCreated worker :: cs.flatMap (service worker)

/-- The customers whom a worker has finished serving, in that order. -/
def served (worker : Nat) (es : List Event) : List Customer :=
  es.filterMap fun
    | .taskFinished w c t => if w = worker then some ⟨c, t⟩ else none
    | _ => none

/-- Whether the events of a worker are a shift with so many services. -/
def isShift (report : WorkerReport) (es : List Event) : Bool :=
  let cs := served report.worker es
  let seen := worker report.worker es
  let full := shift report.worker cs
  cs.length == report.served && (seen == full || seen == full ++ [.workerIdle report.worker])

/-! ## The office. -/

/-- Whether there is room for everybody who enters while `inside` customers are in the office, and
nobody is left in the end. -/
def staysWithin (capacity : Nat) : Nat → List Event → Bool
  | inside, [] => inside == 0
  | inside, .customerAdmitted _ :: es => inside < capacity && staysWithin capacity (inside + 1) es
  | inside, .customerDeparts _ :: es => 0 < inside && staysWithin capacity (inside - 1) es
  | inside, _ :: es => staysWithin capacity inside es

/-- Every kind of course that the customers take, as the kinds of its events, and how many take it.
-/
def courses (cs : List Customer) (es : List Event) : List (List String × Nat) :=
  let all := cs.map fun c => (customer c.id es).map Event.kind
  all.eraseDups.map fun course => (course, all.count course)

end Postal.Trace
