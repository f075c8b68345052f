import Postal.Semaphore

/-!
# A semaphore with sleeping callers.

How waiting is done: a caller that cannot be served falls asleep, and whoever changes what it waits
for wakes all sleepers, since there is no way to wake only the one whose turn it is. A sleeper may
also wake up for no reason. A woken caller looks again and either leaves or falls asleep once more.
-/

namespace Postal.Semaphore

/-- Somebody who calls the semaphore, and how far the call is. -/
inductive Caller where
  /-- Wants a permit and has not entered yet. -/
  | acquiring
  /-- Waits with a ticket and does not look. -/
  | asleep (ticket : Nat)
  /-- Waits with a ticket and is about to look. -/
  | awake (ticket : Nat)
  /-- The acquisition has ended. -/
  | acquired (result : Except Fault Nat)
  /-- Wants a permit only if it is free. -/
  | trying
  /-- The attempt has ended. -/
  | tried (taken : Bool)
  /-- Gives a permit back. -/
  | releasing
  /-- The permit was given back, or was refused. -/
  | released (result : Except Fault Unit)
  /-- Closes the semaphore. -/
  | closing
  /-- Has closed it, and is about to wake the sleepers. -/
  | notifying
  /-- The close has ended. -/
  | closedDown

/-- A sleeper wakes up; everybody else goes on as before. -/
def Caller.wake : Caller → Caller
  | .asleep ticket => .awake ticket
  | c => c

/-- A semaphore and everybody who has called it. -/
structure Hall where
  semaphore : Semaphore
  callers : List Caller

namespace Hall

/-- All sleepers wake up. -/
def wakeAll (h : Hall) : Hall := { h with callers := h.callers.map Caller.wake }

/-- Caller `i` goes on at `c`, and the semaphore is left as `s`. -/
def put (h : Hall) (i : Nat) (c : Caller) (s : Semaphore) : Hall := ⟨s, h.callers.set i c⟩

/-- After a grant the next in line may find a permit that is left over, so the sleepers are woken.
-/
def wakeForLeftover (h : Hall) : Hall :=
  if 0 < h.semaphore.permits && 0 < h.semaphore.queued then h.wakeAll else h

/-- Caller `i` runs its next section. Who sleeps or has ended has none. -/
def step? (h : Hall) (i : Nat) : Option Hall :=
  match h.callers[i]? with
  | some .acquiring =>
    match h.semaphore.arrive with
    | (.refused, s) => some (h.put i (.acquired (.error .interrupted)) s)
    | (.granted ticket, s) => some (h.put i (.acquired (.ok ticket)) s).wakeForLeftover
    | (.waits ticket, s) => some (h.put i (.asleep ticket) s)
  | some (.awake ticket) =>
    match h.semaphore.recheck ticket with
    | none => some (h.put i (.asleep ticket) h.semaphore)
    | some (.error f, s) => some (h.put i (.acquired (.error f)) s)
    | some (.ok ticket, s) => some (h.put i (.acquired (.ok ticket)) s).wakeForLeftover
  | some .trying =>
    let (taken, s) := h.semaphore.tryAcquire
    some (h.put i (.tried taken) s)
  | some .releasing =>
    match h.semaphore.release with
    | .error f => some (h.put i (.released (.error f)) h.semaphore)
    | .ok s =>
      let h := h.put i (.released (.ok ())) s
      some (if 0 < s.queued then h.wakeAll else h)
  | some .closing => some (h.put i .notifying h.semaphore.close)
  | some .notifying => some (h.put i .closedDown h.semaphore).wakeAll
  | _ => none

/-- Caller `i` wakes up for no reason. -/
def stir? (h : Hall) (i : Nat) : Option Hall :=
  match h.callers[i]? with
  | some (.asleep ticket) => some (h.put i (.awake ticket) h.semaphore)
  | _ => none

/-- One more call begins. -/
def join (h : Hall) (c : Caller) : Hall := { h with callers := h.callers ++ [c] }

/-- What can happen next in a hall. -/
inductive Move where
  | step (i : Nat)
  | stir (i : Nat)
  | join (c : Caller)

/-- The hall after a move, if the move is possible. -/
def move? (h : Hall) : Move → Option Hall
  | .step i => h.step? i
  | .stir i => h.stir? i
  | .join c => some (h.join c)

/-- The hall after all the moves of a run. -/
def run? : List Move → Hall → Option Hall
  | [], h => some h
  | m :: ms, h => (h.move? m).bind (run? ms)

/-- Everybody who is awake steps once, in the order of their calls. -/
def pass (h : Hall) : Hall :=
  (List.range h.callers.length).foldl (fun h i => (h.step? i).getD h) h

/-- Everybody steps until all have ended or sleep. A pass that changes anything but who is awake
ends a call, so as many passes as there are callers are enough. -/
def settle (h : Hall) : Hall :=
  (List.range (2 * h.callers.length + 1)).foldl (fun h _ => h.pass) h

end Hall

end Postal.Semaphore
