import Postal.Office.Rota
import Postal.Plan
import Postal.Report

/-!
# A day at the office.

The driver hires the workers, lets the customers come, and takes what they report in the order in
which it arrives. Once every customer has reported, it joins them one by one, fires the shutdown and
waits for the workers. The first failure that it takes ends the day: the office is closed, so that
nobody is left waiting.

Every interleaving of the driver and the people is possible. Whoever has ended reports exactly once,
in a step of its own.
-/

namespace Postal

/-- What somebody reports at the end. -/
inductive Outcome where
  | visit (v : Visit)
  | report (r : WorkerReport)
  | failed (f : Fault)
  deriving DecidableEq, Repr

namespace Outcome

/-- The outcome of a visit. -/
def ofVisit (c : Customer) : Ending Visit → Outcome
  | .returned v => .visit v
  | .failed f => .failed f
  | .panicked => .failed (.panicked .customer c.id)

/-- The outcome of a shift. -/
def ofShift (worker : Nat) : Ending WorkerReport → Outcome
  | .returned r => .report r
  | .failed f => .failed f
  | .panicked => .failed (.panicked .worker worker)

end Outcome

/-- What a person has to report, once it has ended. -/
def Person.outcome? : Person → Option Outcome
  | .customer c v => v.ending?.map (.ofVisit c)
  | .worker id w => w.ending?.map (.ofShift id)
  | .closer _ => none

/-- Where the driver of a day stands. -/
inductive Driver where
  /-- Hires one worker after another. -/
  | hiring
  /-- Lets one customer after another come. -/
  | welcoming
  /-- Takes outcomes until every customer has reported. -/
  | collecting
  /-- Waits for the thread of customer `k` to end. -/
  | joining (k : Nat)
  /-- About to announce that customer `k` was joined. -/
  | announcingJoined (k : Nat) (c : Customer)
  /-- About to fire the shutdown. -/
  | firing
  /-- Takes outcomes until every worker has reported. -/
  | gathering
  /-- Waits for the thread of worker `k` to end. -/
  | parting (k : Nat)
  /-- Closes the office because of a fault. -/
  | aborting (position : Closing) (f : Fault)
  /-- About to fire the shutdown because of a fault. -/
  | givingUp (f : Fault)
  | ended (ending : Ending Report)
  deriving DecidableEq, Repr

/-- A day: what it is to be, the floor, whose outcomes were sent in which order and how many of them
the driver has taken, and what it has taken so far. -/
structure Day where
  config : Config
  customers : List Customer
  runId : RunId
  floor : Floor
  posted : List Nat
  taken : Nat
  visits : List Visit
  reports : List WorkerReport
  driver : Driver
  startedAt : Nat
  deriving Repr

namespace Day

/-- A day before its first step, provided that the configuration can be worked with. -/
def opening (plan : Plan) (chance : Nat) (runId : RunId) (clock : Nat) : Except Fault Day :=
  match plan.config.validated with
  | .error p => .error (.badConfig p.message)
  | .ok c => .ok {
      config := c
      customers := plan.customers chance
      runId
      floor := .opening (.furnish c.capacity c.workerCount c.minute) clock
      posted := []
      taken := 0
      visits := []
      reports := []
      driver := .hiring
      startedAt := clock }

/-- How many people the driver starts. -/
def staffing (d : Day) : Nat := d.config.workerCount + d.customers.length

/-- Person `i`, who has ended, reports. Nobody reports twice. -/
def post? (d : Day) (i : Nat) : Option Day := do
  let person ← d.floor.people[i]?
  let _ ← person.outcome?
  if i ∈ d.posted then none else some { d with posted := d.posted ++ [i] }

/-- The outcome that is next to be taken. -/
def next? (d : Day) : Option Outcome := do
  let i ← d.posted[d.taken]?
  (← d.floor.people[i]?).outcome?

/-- The driver gives the day up because of a fault. -/
def abort (d : Day) (f : Fault) : Day := { d with driver := .aborting .gate f }

/-- What has come out when everybody is gone. Customers and workers are listed by their ids. -/
def report (d : Day) : Report where
  runId := d.runId
  config := d.config
  visits := d.visits.mergeSort fun v w => v.customer.id ≤ w.customer.id
  workers := d.reports.mergeSort fun r s => r.worker ≤ s.worker
  peakScaleHolders := d.floor.premises.scale.peak
  scaleWaits := d.floor.premises.scale.waits
  elapsedMs := d.floor.premises.clock - d.startedAt

/-- The driver takes the next outcome while customers are out. When there is none, it waits, unless
nobody is left who could send one. -/
def collect? (d : Day) : Option Day :=
  match d.next? with
  | some (.visit v) => some { d with taken := d.taken + 1, visits := d.visits ++ [v] }
  | some (.report r) => some { d with taken := d.taken + 1, reports := d.reports ++ [r] }
  | some (.failed f) => some ({ d with taken := d.taken + 1 }.abort f)
  | none =>
    if d.staffing ≤ d.posted.length then some (d.abort (.violation 0 .silentExit)) else none

/-- The driver takes the next outcome after all customers have reported. -/
def gather? (d : Day) : Option Day :=
  match d.next? with
  | some (.visit v) =>
    some { d with
      taken := d.taken + 1
      driver := .ended (.failed (.violation 0 (.lateVisit v.customer.id))) }
  | some (.report r) => some { d with taken := d.taken + 1, reports := d.reports ++ [r] }
  | some (.failed f) => some ({ d with taken := d.taken + 1 }.abort f)
  | none =>
    if d.staffing ≤ d.posted.length then some (d.abort (.violation 0 .silentExit)) else none

/-- The event that the driver is about to announce. -/
def emits? (d : Day) : Option Event :=
  match d.driver with
  | .announcingJoined _ c => some (.customerJoined c.id)
  | _ => none

/-- The next step of the driver. -/
def drive? (d : Day) : Option Day :=
  match d.driver with
  | .hiring =>
    let hired := d.floor.people.length
    some (if hired < d.config.workerCount then { d with floor := d.floor.join (.starts hired) }
      else { d with driver := .welcoming })
  | .welcoming =>
    match d.customers[d.floor.people.length - d.config.workerCount]? with
    | some c => some { d with floor := d.floor.join (.arrives c) }
    | none => some { d with driver := .collecting }
  | .collecting =>
    if d.customers.length ≤ d.visits.length then some { d with driver := .joining 0 }
    else d.collect?
  | .joining k =>
    match d.customers[k]? with
    | none => some { d with driver := .firing }
    | some c =>
      if d.config.workerCount + k ∈ d.posted then some { d with driver := .announcingJoined k c }
      else none
  | .announcingJoined k c =>
    some { d with
      floor := { d.floor with premises := d.floor.premises.record (.customerJoined c.id) }
      driver := .joining (k + 1) }
  | .firing => some { d with floor := d.floor.fire, driver := .gathering }
  | .gathering =>
    if d.config.workerCount ≤ d.reports.length then some { d with driver := .parting 0 }
    else d.gather?
  | .parting k =>
    if k < d.config.workerCount then
      if k ∈ d.posted then some { d with driver := .parting (k + 1) } else none
    else some { d with driver := .ended (.returned d.report) }
  | .aborting position f =>
    match position.step? d.floor.premises with
    | some (position, premises) =>
      some { d with floor := { d.floor with premises }, driver := .aborting position f }
    | none => some { d with driver := .givingUp f }
  | .givingUp f => some { d with floor := d.floor.fire, driver := .ended (.failed f) }
  | .ended _ => none

/-- The announcement of the driver ends in a panic. The trigger of the shutdown goes with it. -/
def unwind? (d : Day) : Option Day :=
  d.emits?.map fun _ => { d with floor := d.floor.fire, driver := .ended .panicked }

/-- How a day has ended that was run in the background: a panic of the driver is a fault like any
other. -/
def inBackground : Ending Report → Ending Report
  | .panicked => .failed (.panicked .driver 0)
  | e => e

/-- How the day has ended. -/
def ending? (d : Day) : Option (Ending Report) :=
  match d.driver with
  | .ended e => some e
  | _ => none

/-- What can happen next on a day. -/
inductive Move where
  /-- Person `i` takes its next step. -/
  | step (i : Nat)
  /-- Person `i` hands its message to person `j`. -/
  | exchange (i j : Nat)
  /-- The announcement of person `i` ends in a panic. -/
  | unwind (i : Nat)
  /-- Person `i` reports. -/
  | post (i : Nat)
  /-- The driver takes its next step. -/
  | drive
  /-- The announcement of the driver ends in a panic. -/
  | unwindDriver
  deriving DecidableEq, Repr

/-- The day after a move, if the move is possible. -/
def move? (d : Day) : Move → Option Day
  | .step i => (d.floor.step? i).map fun floor => { d with floor }
  | .exchange i j => (d.floor.exchange? i j).map fun floor => { d with floor }
  | .unwind i => (d.floor.unwind? i).map fun floor => { d with floor }
  | .post i => d.post? i
  | .drive => d.drive?
  | .unwindDriver => d.unwind?

/-- The day after all the moves of a run. -/
def run? : List Move → Day → Option Day
  | [], d => some d
  | m :: ms, d => (d.move? m).bind (run? ms)

/-- A move on the floor as a move of the day. People come and the shutdown fires only through the
driver. -/
def Move.ofFloor? : Floor.Move → Option Move
  | .step i => some (.step i)
  | .exchange i j => some (.exchange i j)
  | .unwind i => some (.unwind i)
  | _ => none

end Day

end Postal
