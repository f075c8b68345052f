import Postal.Semaphore

/-!
# The gate.

Lets at most `capacity` customers in at a time, in the order of their tickets. The gate also counts
who is inside: the count goes up only after the permit is there, and down before the permit is given
back.
-/

namespace Postal

/-- The permits of the gate, how many it had at first, and how many customers are counted inside. -/
structure Gate where
  permits : Semaphore
  capacity : Nat
  occupancy : Nat
  deriving DecidableEq, Repr

namespace Gate

/-- A gate for `capacity` customers. -/
def ofCapacity (capacity : Nat) : Gate := ⟨.ofPermits capacity, capacity, 0⟩

/-- How many customers are queued outside. -/
def waiting (g : Gate) : Nat := g.permits.queued

/-- Nobody is let in from now on. -/
def close (g : Gate) : Gate := { g with permits := g.permits.close }

/-- Where somebody stands who wants to enter: on the way to a permit, or with it and not counted
yet. -/
inductive Entering where
  | acquiring (position : Semaphore.Acquiring)
  | counting (ticket : Nat)
  deriving DecidableEq, Repr

/-- The start of an entry. -/
def Entering.start : Entering := .acquiring .arriving

/-- The next step of an entry; its result is the ticket. -/
def enter? (g : Gate) : Entering → Option (Progress Entering (Except Fault Nat) × Gate)
  | .acquiring p => do
    let (progress, permits) ← g.permits.acquire? p
    let g := { g with permits }
    match progress with
    | .onward p => some (.onward (.acquiring p), g)
    | .ended (.ok ticket) => some (.onward (.counting ticket), g)
    | .ended (.error f) => some (.ended (.error f), g)
  | .counting ticket => some (.ended (.ok ticket), { g with occupancy := g.occupancy + 1 })

/-- Where somebody stands who leaves: still counted, or only with the permit to give back. -/
inductive Leaving where
  | counted
  | releasing
  deriving DecidableEq, Repr

/-- The next step on the way out, which never waits. -/
def leave (g : Gate) : Leaving → Progress Leaving Unit × Gate
  | .counted => (.onward .releasing, { g with occupancy := g.occupancy - 1 })
  | .releasing => (.ended (), { g with permits := g.permits.releaseOrKeep })

/-! ## Visitors of a gate on its own. -/

/-- Somebody at the gate. -/
inductive Visitor where
  | entering (position : Entering)
  | inside (ticket : Nat)
  | leaving (position : Leaving)
  | refused (fault : Fault)
  | gone
  deriving DecidableEq, Repr

/-- The next step of a visitor. Who is inside stays until told to leave. -/
def Visitor.step? (g : Gate) : Visitor → Option (Visitor × Gate)
  | .entering p =>
    (g.enter? p).map fun (progress, g) =>
      (progress.within .entering fun | .ok ticket => .inside ticket | .error f => .refused f, g)
  | .leaving p =>
    let (progress, g) := g.leave p
    some (progress.within .leaving fun _ => .gone, g)
  | _ => none

/-- Steps of a visitor who is not told anything. -/
def Visitor.left : Visitor → Nat
  | .entering (.acquiring p) => p.left + 1
  | .entering (.counting _) => 1
  | .leaving .counted => 2
  | .leaving .releasing => 1
  | _ => 0

/-- How visitors conduct themselves. -/
def conduct : Conduct Gate Visitor := ⟨fun g v => v.step? g, fun _ v => v.left⟩

/-- Somebody inside turns to leave; nobody else reacts. -/
def Visitor.turn : Visitor → Visitor
  | .inside _ => .leaving .counted
  | v => v

end Gate

end Postal
