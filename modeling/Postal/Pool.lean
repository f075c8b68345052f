import Postal.Semaphore

/-!
# The pool of idle workers.

Two layers of semaphores: one token per worker, and one aggregate count of workers that are free. A
worker puts down its own token *before* it raises the aggregate, so that a customer who got past the
aggregate finds a token in the scan. The scan takes the first token it meets and waits only at the
last slot.
-/

namespace Postal

/-- The count of free workers, and the token of each worker. -/
structure Pool where
  available : Semaphore
  slots : List Semaphore
  deriving DecidableEq, Repr

namespace Pool

/-- A pool of `workers`, none of them free. -/
def ofWorkers (workers : Nat) : Pool :=
  ⟨.ofPermits 0, List.replicate workers (.bounded 0 1)⟩

/-- How many workers the pool is for. -/
def size (p : Pool) : Nat := p.slots.length

/-- How many offers nobody has taken up yet. -/
def idleAdvertisements (p : Pool) : Nat := p.available.permits

/-- Whether the token of a worker is there. -/
def isClaimable (p : Pool) (worker : Nat) : Bool :=
  match p.slots[worker]? with
  | some slot => 0 < slot.permits
  | none => false

/-- The pool with another semaphore at a slot. -/
def setSlot (p : Pool) (worker : Nat) (slot : Semaphore) : Pool :=
  { p with slots := p.slots.set worker slot }

/-! ## A worker offers itself. -/

/-- Where an offer stands: before the own token, or between the token and the aggregate. -/
inductive Advertising where
  | token
  | aggregate
  deriving DecidableEq, Repr

/-- The next step of an offer, which never waits. -/
def advertise (p : Pool) (worker : Nat) :
    Advertising → Progress Advertising (Except Fault Unit) × Pool
  | .token =>
    match p.slots[worker]? with
    | none => (.ended (.error (.violation worker .noSuchWorker)), p)
    | some slot =>
      match slot.release with
      | .error _ => (.ended (.error (.violation worker .stillClaimable)), p)
      | .ok slot => (.onward .aggregate, p.setSlot worker slot)
  | .aggregate =>
    match p.available.release with
    | .error f => (.ended (.error f), p)
    | .ok available => (.ended (.ok ()), { p with available })

/-! ## A customer looks for a worker. -/

/-- Where a customer stands who looks for a worker. -/
inductive Claiming where
  /-- Waits for some worker to be free. -/
  | aggregate (position : Semaphore.Acquiring)
  /-- Is about to try the token of this worker. -/
  | probing (worker : Nat)
  /-- Waits for the token of the last worker. -/
  | last (position : Semaphore.Acquiring)
  deriving DecidableEq, Repr

/-- The start of a search. -/
def Claiming.start : Claiming := .aggregate .arriving

/-- Where the scan goes on at a slot: it tries the slot, or waits there if it is the last one. -/
def scan (p : Pool) (worker : Nat) : Progress Claiming (Except Fault Nat) :=
  if worker + 1 < p.size then .onward (.probing worker)
  else if worker + 1 = p.size then .onward (.last .arriving)
  else .ended (.error (.violation 0 .noWorkers))

/-- The next step of a search; its result is the worker. -/
def claim? (p : Pool) : Claiming → Option (Progress Claiming (Except Fault Nat) × Pool)
  | .aggregate position => do
    let (progress, available) ← p.available.acquire? position
    let p := { p with available }
    match progress with
    | .onward position => some (.onward (.aggregate position), p)
    | .ended (.ok _) => some (p.scan 0, p)
    | .ended (.error f) => some (.ended (.error f), p)
  | .probing worker => do
    let slot ← p.slots[worker]?
    match slot.tryAcquire with
    | (true, slot) => some (.ended (.ok worker), p.setSlot worker slot)
    | (false, slot) => some (p.scan (worker + 1), p.setSlot worker slot)
  | .last position => do
    let worker := p.size - 1
    let slot ← p.slots[worker]?
    let (progress, slot) ← slot.acquire? position
    let p := p.setSlot worker slot
    match progress with
    | .onward position => some (.onward (.last position), p)
    | .ended (.ok _) => some (.ended (.ok worker), p)
    | .ended (.error f) => some (.ended (.error f), p)

/-- Steps that are left of a search. -/
def Claiming.left (p : Pool) : Claiming → Nat
  | .aggregate position => position.left + p.size + 2
  | .probing worker => p.size - worker + 2
  | .last position => position.left

/-! ## Closing, step by step. -/

/-- The aggregate is closed first, then the slots in their order. -/
inductive Closing where
  | aggregate
  | slot (worker : Nat)
  deriving DecidableEq, Repr

/-- The next step of closing the pool. -/
def close (p : Pool) : Closing → Progress Closing Unit × Pool
  | .aggregate => (.onward (.slot 0), { p with available := p.available.close })
  | .slot worker =>
    match p.slots[worker]? with
    | some slot => (.onward (.slot (worker + 1)), p.setSlot worker slot.close)
    | none => (.ended (), p)

/-! ## Callers of a pool on its own. -/

/-- Somebody who calls the pool. -/
inductive Caller where
  | advertising (worker : Nat) (position : Advertising)
  | advertised (worker : Nat) (result : Except Fault Unit)
  | claiming (position : Claiming)
  | claimed (result : Except Fault Nat)
  | closing (position : Closing)
  | closedDown

/-- The next step of a caller. -/
def Caller.step? (p : Pool) : Caller → Option (Caller × Pool)
  | .advertising worker position =>
    let (progress, p) := p.advertise worker position
    some (progress.within (.advertising worker) (.advertised worker), p)
  | .claiming position =>
    (p.claim? position).map fun (progress, p) => (progress.within .claiming .claimed, p)
  | .closing position =>
    let (progress, p) := p.close position
    some (progress.within .closing fun _ => .closedDown, p)
  | _ => none

/-- Steps that a caller has left. -/
def Caller.left (p : Pool) : Caller → Nat
  | .advertising _ .token => 2
  | .advertising _ .aggregate => 1
  | .claiming position => position.left p
  | .closing .aggregate => p.size + 2
  | .closing (.slot worker) => p.size - worker + 1
  | _ => 0

/-- How callers conduct themselves. -/
def conduct : Conduct Pool Caller := ⟨fun p c => c.step? p, fun p c => c.left p⟩

end Pool

end Postal
