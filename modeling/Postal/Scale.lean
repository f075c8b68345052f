import Postal.Semaphore

/-!
# The scale.

One scale for all workers, behind a semaphore of one permit. It counts who holds it, the most
holders there ever were, and how often somebody did not get it at the first attempt.
-/

namespace Postal

/-- The permit of the scale and its three counters. -/
structure Scale where
  permit : Semaphore
  holders : Nat
  peak : Nat
  waits : Nat
  deriving DecidableEq, Repr

namespace Scale

/-- A scale that nobody holds. -/
def fresh : Scale := ⟨.bounded 1 1, 0, 0, 0⟩

/-- Nobody gets the scale from now on. -/
def close (s : Scale) : Scale := { s with permit := s.permit.close }

/-- Where somebody stands who wants the scale. -/
inductive Acquiring where
  /-- About to try without waiting. -/
  | trying
  /-- The attempt has failed and is about to be counted. -/
  | counting
  /-- On the way to the permit. -/
  | acquiring (position : Semaphore.Acquiring)
  /-- Has the permit and is about to be counted as a holder. -/
  | raising
  /-- Counted as one of `holders`; the peak is about to be noted. -/
  | noting (holders : Nat)
  deriving DecidableEq, Repr

/-- The next step towards the scale. -/
def acquire? (s : Scale) : Acquiring → Option (Progress Acquiring (Except Fault Unit) × Scale)
  | .trying =>
    let (taken, permit) := s.permit.tryAcquire
    some (.onward (if taken then .raising else .counting), { s with permit })
  | .counting => some (.onward (.acquiring .arriving), { s with waits := s.waits + 1 })
  | .acquiring p => do
    let (progress, permit) ← s.permit.acquire? p
    let s := { s with permit }
    match progress with
    | .onward p => some (.onward (.acquiring p), s)
    | .ended (.ok _) => some (.onward .raising, s)
    | .ended (.error f) => some (.ended (.error f), s)
  | .raising =>
    some (.onward (.noting (s.holders + 1)), { s with holders := s.holders + 1 })
  | .noting holders => some (.ended (.ok ()), { s with peak := max s.peak holders })

/-- Steps that are left until the scale is held. -/
def Acquiring.left : Acquiring → Nat
  | .trying => 6
  | .counting => 5
  | .acquiring p => p.left + 2
  | .raising => 2
  | .noting _ => 1

/-- Where somebody stands who gives the scale back: still counted as a holder, or only with the
permit. -/
inductive Dropping where
  | counted
  | releasing
  deriving DecidableEq, Repr

/-- The next step of giving the scale back, which never waits. -/
def drop (s : Scale) : Dropping → Progress Dropping Unit × Scale
  | .counted => (.onward .releasing, { s with holders := s.holders - 1 })
  | .releasing => (.ended (), { s with permit := s.permit.releaseOrKeep })

/-! ## Users of a scale on its own. -/

/-- Somebody at the scale. -/
inductive User where
  /-- Wants the scale; `panics` tells whether it will panic as soon as it holds it. -/
  | acquiring (panics : Bool) (position : Acquiring)
  /-- Holds the scale. -/
  | holding
  /-- Gives the scale back, `unwound` by a panic or of its own accord. -/
  | dropping (unwound : Bool) (position : Dropping)
  | refused (fault : Fault)
  | gone
  | panicked
  deriving DecidableEq, Repr

/-- The next step of a user. Who holds the scale keeps it until told to give it back. -/
def User.step? (s : Scale) : User → Option (User × Scale)
  | .acquiring panics p =>
    (s.acquire? p).map fun (progress, s) =>
      (progress.within (.acquiring panics) fun
        | .ok _ => if panics then .dropping true .counted else .holding
        | .error f => .refused f, s)
  | .dropping unwound p =>
    let (progress, s) := s.drop p
    some (progress.within (.dropping unwound) fun _ => if unwound then .panicked else .gone, s)
  | _ => none

/-- Steps of giving the scale back. -/
def Dropping.left : Dropping → Nat
  | .counted => 2
  | .releasing => 1

/-- Steps of a user who is not told anything. -/
def User.left : User → Nat
  | .acquiring _ p => p.left + 2
  | .dropping _ p => p.left
  | _ => 0

/-- How users conduct themselves. -/
def conduct : Conduct Scale User := ⟨fun s u => u.step? s, fun _ u => u.left⟩

/-- Somebody who holds the scale turns to give it back; nobody else reacts. -/
def User.turn : User → User
  | .holding => .dropping false .counted
  | u => u

end Scale

end Postal
