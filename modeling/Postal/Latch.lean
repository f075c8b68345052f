/-!
# The shutdown latch.

A trigger and its listeners. Firing is for ever, and a trigger that is gone has fired; nothing is
ever sent, so a listener only learns that the latch has fired.
-/

namespace Postal

/-- Whether the trigger still exists, whether it has fired, and how many listeners there are. -/
structure Latch where
  hasTrigger : Bool
  fired : Bool
  listeners : Nat
  deriving DecidableEq, Repr

namespace Latch

/-- A latch that has not fired, with one listener. -/
def fresh : Latch := ⟨true, false, 1⟩

/-- The trigger fires. -/
def fire (l : Latch) : Latch := { l with fired := true }

/-- The trigger goes away, which fires the latch. -/
def dropTrigger (l : Latch) : Latch := { l with hasTrigger := false, fired := true }

/-- One more listener hears the same latch. -/
def clone (l : Latch) : Latch := { l with listeners := l.listeners + 1 }

/-- Whether the trigger has fired, as long as there is one to ask. -/
def isFired? (l : Latch) : Option Bool := if l.hasTrigger then some l.fired else none

/-- What every listener hears. -/
def heard (l : Latch) : List Bool := List.replicate l.listeners l.fired

/-- A wait on the latch ends as soon as it has fired. -/
def wakes (l : Latch) : Bool := l.fired

end Latch

end Postal
