import Postal.Office

/-!
# How a worker works.

A shift is a loop: open the slot, announce to be free, put the offer into the pool, wait for an
assignment and serve it. The loop ends when the shutdown has fired or the office is closed, and the
worker then reports how many services it completed. Only a broken protocol or a panic ends a shift
otherwise.
-/

namespace Postal

/-- Where a worker stands within one service. -/
inductive Service where
  | announcingIntent
  /-- About to accept the assignment. -/
  | acknowledging
  /-- Holds out its acceptance. -/
  | sendingAcknowledge
  | awaitingProceed
  | checkingProceed
  /-- On the way to the scale. -/
  | weighing (position : Scale.Acquiring)
  | announcingStart
  /-- Busy until this point in time. -/
  | busy (deadline : Nat)
  /-- Gives the scale back. -/
  | releasing (position : Scale.Dropping)
  | announcingFinish
  /-- About to call the task done. -/
  | completing
  /-- Holds out the completion. -/
  | sendingCompletion
  /-- The completion was taken, and the slot is about to be freed. -/
  | settling
  deriving DecidableEq, Repr

/-- Where a worker stands; `served` counts the services it has completed. -/
inductive Working where
  /-- About to look up its slot. -/
  | arriving
  | announcingCreation
  /-- About to see whether the shutdown has fired. -/
  | deciding (served : Nat)
  | opening (served : Nat)
  | announcingIdle (served : Nat)
  | advertising (served : Nat) (position : Pool.Advertising)
  | awaitingPublish (served : Nat)
  | checkingReceived (served : Nat) (assignment : Assignment)
  | serving (served : Nat) (assignment : Assignment) (position : Service)
  /-- A panic makes it give the scale back on the way out. -/
  | unwinding (position : Scale.Dropping)
  | ended (ending : Ending WorkerReport)
  deriving DecidableEq, Repr

namespace Service

/-- Goes on after a section of the slot. -/
def afterSection (next : Service) : Except Fault Unit → Progress Service (Except Fault Unit)
  | .ok () => .onward next
  | .error f => .ended (.error f)

/-- A wait at the slot ends by itself only when the slot is closed. -/
def orClosed (p : Premises) (worker : Nat) :
    Option (Progress Service (Except Fault Unit) × Premises) :=
  if p.isSlotClosed worker then some (.ended (.error .interrupted), p) else none

/-- The event that the worker is about to announce. -/
def emits? (worker : Nat) (a : Assignment) : Service → Option Event
  | .announcingIntent => some (.workerAnnouncesIntent worker a.customer)
  | .announcingStart => some (.taskStarted worker a.customer a.task)
  | .announcingFinish => some (.taskFinished worker a.customer a.task)
  | _ => none

/-- The next step of a service. -/
def step? (worker : Nat) (a : Assignment) (p : Premises) :
    Service → Option (Progress Service (Except Fault Unit) × Premises)
  | .announcingIntent =>
    some (.onward .acknowledging, p.record (.workerAnnouncesIntent worker a.customer))
  | .acknowledging =>
    (p.section? worker (·.acknowledge)).map fun (r, p) => (afterSection .sendingAcknowledge r, p)
  | .sendingAcknowledge => orClosed p worker
  | .awaitingProceed => orClosed p worker
  | .checkingProceed => do
    let s ← p.slots[worker]?
    match s.checkProceed with
    | .ok () =>
      some (.onward (if a.task.needsScale then .weighing .trying else .announcingStart), p)
    | .error f => some (.ended (.error f), p)
  | .weighing position =>
    (p.scale.acquire? position).map fun (progress, scale) =>
      (progress.within (fun position => .onward (.weighing position)) fun
        | .ok () => .onward .announcingStart
        | .error f => .ended (.error f), { p with scale })
  | .announcingStart =>
    some (.onward (.busy (p.clock + a.task.duration p.minute)),
      p.record (.taskStarted worker a.customer a.task))
  | .busy deadline =>
    some (.onward (if a.task.needsScale then .releasing .counted else .announcingFinish),
      { p with clock := max p.clock deadline })
  | .releasing position =>
    let (progress, scale) := p.scale.drop position
    some (progress.within (fun position => .onward (.releasing position)) fun _ =>
      .onward .announcingFinish, { p with scale })
  | .announcingFinish =>
    some (.onward .completing, p.record (.taskFinished worker a.customer a.task))
  | .completing =>
    (p.section? worker (·.complete)).map fun (r, p) => (afterSection .sendingCompletion r, p)
  | .sendingCompletion => orClosed p worker
  | .settling =>
    (p.section? worker fun s => .ok s.settle).map fun (r, p) => (.ended r, p)

end Service

namespace Working

/-- A shift begins. -/
def start : Working := .arriving

/-- The shift ends with a report. -/
def report (worker served : Nat) : Working := .ended (.returned ⟨worker, served⟩)

/-- The shift ends with a fault, or with a report if it was merely interrupted. -/
def stop (worker served : Nat) : Fault → Working
  | .interrupted => report worker served
  | f => .ended (.failed f)

/-- The event that the worker is about to announce. -/
def emits? (worker : Nat) : Working → Option Event
  | .announcingCreation => some (.workerCreated worker)
  | .announcingIdle _ => some (.workerIdle worker)
  | .serving _ a s => s.emits? worker a
  | _ => none

/-- The next step of a worker. While an assignment is held out to it, the shutdown does not end the
wait for one. -/
def step? (worker : Nat) (p : Premises) (offered : Bool) : Working → Option (Working × Premises)
  | .arriving =>
    some (if worker < p.workerCount then .announcingCreation
      else .ended (.failed (.violation worker .noSuchWorker)), p)
  | .announcingCreation => some (.deciding 0, p.record (.workerCreated worker))
  | .deciding served => some (if p.fired then report worker served else .opening served, p)
  | .opening served =>
    (p.section? worker (·.openUp)).map fun
      | (.ok (), p) => (.announcingIdle served, p)
      | (.error f, p) => (.ended (.failed f), p)
  | .announcingIdle served =>
    some (.advertising served .token, p.record (.workerIdle worker))
  | .advertising served position =>
    let (progress, pool) := p.pool.advertise worker position
    some (progress.within (.advertising served) fun
      | .ok () => .awaitingPublish served
      | .error f => .ended (.failed f), { p with pool })
  | .awaitingPublish served =>
    if p.isSlotClosed worker || (p.fired && !offered) then some (report worker served, p) else none
  | .checkingReceived served a => do
    let s ← p.slots[worker]?
    match s.checkReceived a with
    | .ok () => some (.serving served a .announcingIntent, p)
    | .error f => some (.ended (.failed f), p)
  | .serving served a position =>
    (position.step? worker a p).map fun (progress, p) =>
      (progress.within (.serving served a) fun
        | .ok () => .deciding (served + 1)
        | .error f => stop worker served f, p)
  | .unwinding position =>
    let (progress, scale) := p.scale.drop position
    some (progress.within .unwinding fun _ => .ended .panicked, { p with scale })
  | .ended _ => none

/-- Whether the worker holds the scale while it announces. -/
def holdsScale : Working → Bool
  | .serving _ a .announcingStart => a.task.needsScale
  | _ => false

/-- What a panic while announcing makes of the shift: the scale is given back on the way. -/
def unwind? (worker : Nat) (w : Working) : Option Working :=
  (w.emits? worker).map fun _ => if w.holdsScale then .unwinding .counted else .ended .panicked

/-- The message that the worker holds out. -/
def sends? : Working → Option Message
  | .serving _ _ .sendingAcknowledge => some .acknowledged
  | .serving _ _ .sendingCompletion => some .completed
  | _ => none

/-- The signal that the worker waits for. -/
def receives? : Working → Option Signal
  | .awaitingPublish _ => some .published
  | .serving _ _ .awaitingProceed => some .proceed
  | _ => none

/-- The worker goes on after its message was taken. -/
def afterSend : Working → Working
  | .serving served a .sendingAcknowledge => .serving served a .awaitingProceed
  | .serving served a .sendingCompletion => .serving served a .settling
  | w => w

/-- The worker goes on with the message it took. -/
def afterReceive (m : Message) : Working → Working
  | .awaitingPublish served =>
    match m with
    | .assignment a => .checkingReceived served a
    | _ => .awaitingPublish served
  | .serving served a .awaitingProceed => .serving served a .checkingProceed
  | w => w

/-- How the shift has ended. -/
def ending? : Working → Option (Ending WorkerReport)
  | .ended e => some e
  | _ => none

/-- The point in time until which the worker is busy. -/
def busyUntil? : Working → Option Nat
  | .serving _ _ (.busy deadline) => some deadline
  | _ => none

end Working

end Postal
