import Postal.Bounds
import Postal.Fault

/-!
# Calls that run in steps.

A call on something shared is a position and a rule for the next step. A step happens as a whole,
and between two steps of one call any other call may take some. A step that has to wait is not there
yet: the rule answers `none` until the wait can end.

A `Crowd` is a shared thing with everybody who has called it. An interleaving of the calls is a list
of choices of who goes next; `Crowd.settle` is the one in which everybody goes as far as possible,
the earlier caller first.
-/

namespace Postal

/-- Where one step leaves a call: further on, or at its end with a result. -/
inductive Progress (P R : Type) where
  | onward (position : P)
  | ended (result : R)
  deriving DecidableEq, Repr

/-- What an outer call makes of the progress of a call inside it. -/
def Progress.within {P R Q : Type} (further : P → Q) (afterwards : R → Q) : Progress P R → Q
  | .onward p => further p
  | .ended r => afterwards r

/-- How a call ends: with its result, with a fault, or unwound by a panic. -/
inductive Ending (A : Type) where
  | returned (result : A)
  | failed (fault : Fault)
  | panicked
  deriving DecidableEq, Repr

/-- Takes steps until there is none left, and at most `n` of them. -/
def runWhile {A : Type} (next? : A → Option A) : Nat → A → A
  | 0, a => a
  | n + 1, a =>
    match next? a with
    | none => a
    | some b => runWhile next? n b

/-- A shared thing and everybody who has called it, in the order of their calls. -/
structure Crowd (S P : Type) where
  shared : S
  callers : List P
  deriving DecidableEq, Repr

/-- The rule by which callers step, and how many steps a caller has left at most. -/
structure Conduct (S P : Type) where
  step? : S → P → Option (P × S)
  left : S → P → Nat

namespace Crowd

variable {S P : Type}

/-- A shared thing that nobody has called yet. -/
def ofShared (s : S) : Crowd S P := ⟨s, []⟩

/-- One more call begins. -/
def join (c : Crowd S P) (p : P) : Crowd S P := { c with callers := c.callers ++ [p] }

/-- Caller `i` takes its next step. -/
def step? (rule : Conduct S P) (c : Crowd S P) (i : Nat) : Option (Crowd S P) := do
  let p ← c.callers[i]?
  let (p, s) ← rule.step? c.shared p
  some ⟨s, c.callers.set i p⟩

/-- The callers step in the order of the list; a caller that cannot step makes the whole run
impossible. -/
def run? (rule : Conduct S P) : List Nat → Crowd S P → Option (Crowd S P)
  | [], c => some c
  | i :: is, c => (c.step? rule i).bind (run? rule is)

/-- The first caller that can step does. -/
def advance? (rule : Conduct S P) (c : Crowd S P) : Option (Crowd S P) :=
  (List.range c.callers.length).findSome? (c.step? rule)

/-- Everybody steps until nobody can. -/
def settle (rule : Conduct S P) (c : Crowd S P) : Crowd S P :=
  runWhile (advance? rule) (total (c.callers.map (rule.left c.shared))) c

end Crowd

end Postal
