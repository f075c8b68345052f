import Postal.Phase

/-!
# Faults.

Why a call of the office fails. A fault is kept as its cause; `Fault.message` is the only place that
words it.
-/

namespace Postal

/-- How a caller has broken the protocol of a slot. -/
inductive Breach where
  /-- The id names no slot. -/
  | noSuchWorker
  /-- A worker offers itself again before anybody took the last offer. -/
  | stillClaimable
  /-- A customer looks for a worker in a pool without any. -/
  | noWorkers
  /-- A step of the handshake is taken in another phase than the one it needs. -/
  | outOfTurn (goal needed found : Phase)
  /-- A customer hands over an assignment to a slot that is not waiting for one. -/
  | publishedInto (customer : Nat) (found : Phase)
  /-- An assignment arrives that is not the one bound to the slot. -/
  | receivedIn (customer : Nat) (found : Phase)
  /-- The go-ahead arrives in another phase than the one it belongs to. -/
  | proceededIn (found : Phase)
  /-- The other end of a signal is gone. -/
  | disconnected (signal : Signal)
  /-- All threads of a day have ended, yet outcomes are missing. -/
  | silentExit
  /-- A customer reports after all customers have left. -/
  | lateVisit (customer : Nat)
  /-- A breach that a caller words itself. -/
  | stated (detail : String)
  deriving DecidableEq, Repr

/-- The text of a breach. -/
def Breach.detail : Breach → String
  | .noSuchWorker => "no such worker"
  | .stillClaimable => "advertised while still claimable"
  | .noWorkers => "pool has no workers"
  | .outOfTurn goal needed found =>
    goal.title ++ " requires " ++ needed.title ++ ", slot is " ++ found.title
  | .publishedInto customer found =>
    "customer " ++ toString customer ++ " published into phase " ++ found.title
  | .receivedIn customer found =>
    "assignment for customer " ++ toString customer ++ " received in phase " ++ found.title
  | .proceededIn found => "proceed received in phase " ++ found.title
  | .disconnected signal => signal.title ++ " signal disconnected"
  | .silentExit => "threads exited without reporting"
  | .lateVisit customer =>
    "customer " ++ toString customer ++ " reported after all customers left"
  | .stated detail => detail

/-- Whose thread it is. -/
inductive Role where
  | customer
  | worker
  | driver
  deriving DecidableEq, Repr

/-- The word for a role. -/
def Role.title : Role → String
  | .customer => "customer"
  | .worker => "worker"
  | .driver => "driver"

/-- Why a call of the office fails. -/
inductive Fault where
  /-- The protocol of a slot was broken. -/
  | violation (slot : Nat) (breach : Breach)
  /-- A permit was given back to a semaphore that already holds all it may. -/
  | overflow (limit : Nat)
  /-- The wait was cut short by a close or a shutdown. -/
  | interrupted
  /-- The configuration cannot be worked with. -/
  | badConfig (reason : String)
  /-- A thread was unwound by a panic. -/
  | panicked (role : Role) (id : Nat)
  /-- A thread could not be started. -/
  | spawn (reason : String)
  deriving DecidableEq, Repr

/-- The text of a fault. -/
def Fault.message : Fault → String
  | .violation slot breach =>
    "protocol violation on slot " ++ toString slot ++ ": " ++ breach.detail
  | .overflow limit => "semaphore released beyond its limit of " ++ toString limit ++ " permits"
  | .interrupted => "wait interrupted by shutdown"
  | .badConfig reason => "invalid configuration: " ++ reason
  | .panicked role id => role.title ++ " thread " ++ toString id ++ " panicked"
  | .spawn reason => "failed to spawn thread: " ++ reason

end Postal
