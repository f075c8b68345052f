import Postal.Office

/-!
# How a customer visits.

A visit is a walk through fixed positions: through the gate, to a worker, through the handshake at
the slot of that worker, and out again. Once inside, every way out goes through the gate, whether
the visit is complete, has failed or is unwound by a panic.
-/

namespace Postal

/-- What a customer knows of its own stay. -/
structure Stay where
  ticket : Nat
  admittedAt : Nat
  deriving DecidableEq, Repr

/-- Where a customer stands at the slot of the worker it has claimed. -/
inductive Dealing where
  | announcingClaim
  /-- About to bind itself to the slot. -/
  | publishing
  /-- Bound to the slot, about to stand in line with its assignment. -/
  | offering
  /-- Holds out its assignment. -/
  | handing
  | awaitingAcknowledge
  | announcingIntent
  /-- About to let the worker go ahead. -/
  | proceeding
  /-- Holds out the go-ahead. -/
  | sendingProceed
  | awaitingCompletion
  | announcingFinish
  | announcingDeparture
  /-- About to look at the clock on the way out. -/
  | departing
  deriving DecidableEq, Repr

/-- Where a customer stands. -/
inductive Visiting where
  | announcingCreation
  | entering (position : Gate.Entering)
  /-- Inside, about to look at the clock. -/
  | admitted (ticket : Nat)
  | announcingAdmission (stay : Stay)
  | claiming (stay : Stay) (position : Pool.Claiming)
  | dealing (stay : Stay) (worker : Nat) (position : Dealing)
  | leaving (position : Gate.Leaving) (ending : Ending Visit)
  | ended (ending : Ending Visit)
  deriving DecidableEq, Repr

namespace Visiting

/-- A visit begins. -/
def start : Visiting := .announcingCreation

/-- The customer turns to the exit. -/
def leave (ending : Ending Visit) : Visiting := .leaving .counted ending

/-- Goes on after a section of the slot, or leaves with its fault. -/
def afterSection (next : Visiting) : Except Fault Unit → Visiting
  | .ok () => next
  | .error f => leave (.failed f)

/-- A wait at a slot ends by itself only when the slot is closed. -/
def orClosed (p : Premises) (worker : Nat) : Option (Visiting × Premises) :=
  if p.isSlotClosed worker then some (leave (.failed .interrupted), p) else none

/-- The event that the customer is about to announce. -/
def emits? (c : Customer) : Visiting → Option Event
  | .announcingCreation => some (.customerCreated c.id)
  | .announcingAdmission _ => some (.customerAdmitted c.id)
  | .dealing _ worker .announcingClaim => some (.customerClaimsWorker c.id worker)
  | .dealing _ worker .announcingIntent => some (.customerAnnouncesIntent c.id worker c.task)
  | .dealing _ _ .announcingFinish => some (.customerFinished c.id c.task)
  | .dealing _ _ .announcingDeparture => some (.customerDeparts c.id)
  | _ => none

/-- The next step at the slot of the claimed worker. -/
def deal? (c : Customer) (p : Premises) (stay : Stay) (worker : Nat) :
    Dealing → Option (Visiting × Premises)
  | .announcingClaim =>
    some (.dealing stay worker .publishing, p.record (.customerClaimsWorker c.id worker))
  | .publishing =>
    (p.section? worker (·.bind c.assignment)).map fun (r, p) =>
      (afterSection (.dealing stay worker .offering) r, p)
  | .offering => some (.dealing stay worker .handing, p)
  | .handing => orClosed p worker
  | .awaitingAcknowledge => orClosed p worker
  | .announcingIntent =>
    some (.dealing stay worker .proceeding,
      p.record (.customerAnnouncesIntent c.id worker c.task))
  | .proceeding =>
    (p.section? worker (·.proceed)).map fun (r, p) =>
      (afterSection (.dealing stay worker .sendingProceed) r, p)
  | .sendingProceed => orClosed p worker
  | .awaitingCompletion => orClosed p worker
  | .announcingFinish =>
    some (.dealing stay worker .announcingDeparture, p.record (.customerFinished c.id c.task))
  | .announcingDeparture =>
    some (.dealing stay worker .departing, p.record (.customerDeparts c.id))
  | .departing =>
    some (leave (.returned ⟨c, worker, stay.ticket, stay.admittedAt, p.clock⟩), p)

/-- The next step of a customer. -/
def step? (c : Customer) (p : Premises) : Visiting → Option (Visiting × Premises)
  | .announcingCreation =>
    some (.entering .start, p.record (.customerCreated c.id))
  | .entering position =>
    (p.gate.enter? position).map fun (progress, gate) =>
      (progress.within .entering fun
        | .ok ticket => .admitted ticket
        | .error f => .ended (.failed f), { p with gate })
  | .admitted ticket => some (.announcingAdmission ⟨ticket, p.clock⟩, p)
  | .announcingAdmission stay =>
    some (.claiming stay .start, p.record (.customerAdmitted c.id))
  | .claiming stay position =>
    (p.pool.claim? position).map fun (progress, pool) =>
      (progress.within (.claiming stay) fun
        | .ok worker =>
          if worker < p.workerCount then .dealing stay worker .announcingClaim
          else leave (.failed (.violation worker .noSuchWorker))
        | .error f => leave (.failed f), { p with pool })
  | .dealing stay worker position => deal? c p stay worker position
  | .leaving position ending =>
    let (progress, gate) := p.gate.leave position
    some (progress.within (.leaving · ending) fun _ => .ended ending, { p with gate })
  | .ended _ => none

/-- What a panic while announcing makes of the visit: who is inside leaves on the way. -/
def unwind? (c : Customer) (v : Visiting) : Option Visiting :=
  (v.emits? c).map fun _ =>
    match v with
    | .announcingCreation => .ended .panicked
    | _ => leave .panicked

/-- The message that the customer holds out, and the worker it is for. -/
def sends? (c : Customer) : Visiting → Option (Nat × Message)
  | .dealing _ worker .handing => some (worker, .assignment c.assignment)
  | .dealing _ worker .sendingProceed => some (worker, .proceed)
  | _ => none

/-- The signal that the customer waits for, and the worker it is from. -/
def receives? : Visiting → Option (Nat × Signal)
  | .dealing _ worker .awaitingAcknowledge => some (worker, .acknowledged)
  | .dealing _ worker .awaitingCompletion => some (worker, .completed)
  | _ => none

/-- The customer goes on after its message was taken. -/
def afterSend : Visiting → Visiting
  | .dealing stay worker .handing => .dealing stay worker .awaitingAcknowledge
  | .dealing stay worker .sendingProceed => .dealing stay worker .awaitingCompletion
  | v => v

/-- The customer goes on after it took a message. -/
def afterReceive : Visiting → Visiting
  | .dealing stay worker .awaitingAcknowledge => .dealing stay worker .announcingIntent
  | .dealing stay worker .awaitingCompletion => .dealing stay worker .announcingFinish
  | v => v

/-- How the visit has ended. -/
def ending? : Visiting → Option (Ending Visit)
  | .ended e => some e
  | _ => none

end Visiting

end Postal
