import Postal.Office.Floor
import Postal.Slot.Callers

/-!
# Waits with several arms.

Whoever waits at a slot waits for more than one thing: for the other side of its signal, and for the
close of the slot; a worker that waits for an assignment, for the shutdown too. Such a wait is a
select with an arm for each. If some arms are ready then the select ends by one of them, and it is
left to chance by which. If none is then it parks, until somebody selects the other side of its
signal and meets it, or until another arm becomes ready. A close wakes everybody who is parked at
its slot, and the shutdown everybody who heeds it; whoever is woken selects again.

The shutdown arm alone does not end the wait for an assignment. The worker tries once more to
receive, now without waiting, and is interrupted only if nobody is parked with an assignment.

How fine the moves of a select are is assumed here, and not derived from how an implementation goes
through the arms. That a select looks at all its arms, finds none ready and stands at every one of
them is one move, with nothing in between; so is that it ends by the arm of its signal, together
with the select that it meets. So whoever is met is parked, at all its arms: nobody meets a select
that stands at some of its arms and has not looked at the others yet. Besides, no select parks with
an arm ready, and a close or the shutdown wakes all who are parked at an arm of it.

The rules of a slot and of the office say at once how a wait ends, and know nothing of arms. Here is
what stands behind them, for any venue: a place where people wait at slots.
-/

namespace Postal

/-- What a select waits for: one side of a signal, at a slot. -/
structure Wait where
  slot : Nat
  signal : Signal
  sends : Bool
  deriving DecidableEq, Repr

namespace Wait

/-- The wait of somebody who holds out a message, or waits for a signal. -/
def of? : Option (Nat × Message) → Option (Nat × Signal) → Option Wait
  | some (slot, m), _ => some ⟨slot, m.signal, true⟩
  | none, some (slot, signal) => some ⟨slot, signal, false⟩
  | none, none => none

/-- Whether two waits are for the two sides of one signal. -/
def meets (w w' : Wait) : Bool :=
  w.slot == w'.slot && w.signal == w'.signal && w.sends != w'.sends

/-- Whether the wait has an arm for the shutdown. -/
def heeds (w : Wait) : Bool := w.signal == .published && !w.sends

end Wait

/-- A place where people wait at slots, with all that matters for it there. -/
structure Venue (S M P : Type) where
  people : S → List P
  /-- The place with other people. -/
  seat : S → List P → S
  closed : S → Nat → Bool
  fired : S → Bool
  /-- The wait that a person has begun, or is about to begin. -/
  wait? : P → Option Wait
  /-- A person who is about to wait stands in line for it. -/
  lineUp : P → P
  /-- A person goes on after its message was taken. -/
  afterSend : P → P
  /-- A person goes on with the message of another one, who comes first. -/
  afterReceive : P → P → P
  /-- A person goes on after its wait was interrupted. -/
  interrupted : P → P
  /-- The rules of the place: its state after a move, if the move is possible. -/
  rule? : S → M → Option S
  /-- Whose step a move is. -/
  stepper? : M → Option Nat
  isExchange : M → Bool

/-- A place, those who are parked in a select there, and those whom the shutdown arm has sent to try
once more. -/
structure Selecting (S : Type) where
  place : S
  parked : List Nat
  retrying : List Nat

namespace Selecting

/-- What can happen next at a place with selects. -/
inductive Move (M : Type) where
  /-- A move of the place in which nobody is at a select. -/
  | aside (m : M)
  /-- No arm is ready in the select of person `i`, and it parks. -/
  | park (i : Nat)
  /-- The select of person `i` ends by the arm of its signal: it meets person `j`, who is parked. -/
  | meet (i j : Nat)
  /-- The select of person `i` ends by the arm of the close. -/
  | quit (i : Nat)
  /-- The select of person `i` ends by the arm of the shutdown. -/
  | heed (i : Nat)
  /-- Person `i` tries once more, and meets somebody who is parked, or nobody. -/
  | retry (i : Nat) (partner : Option Nat)
  deriving DecidableEq, Repr

/-- The move of the place that it is, if nobody is at a select in it. -/
def Move.aside? {M : Type} : Move M → Option M
  | .aside m => some m
  | _ => none

/-- A place where nobody is at a select yet. -/
def start {S : Type} (s : S) : Selecting S := ⟨s, [], []⟩

/-- Whether person `i` is neither parked nor about to try once more. -/
def isAway {S : Type} (x : Selecting S) (i : Nat) : Bool :=
  !x.parked.contains i && !x.retrying.contains i

end Selecting

namespace Venue

variable {S M P : Type}

section Place

variable (v : Venue S M P) (s : S)

/-- The wait of person `i`. -/
def waitOf? (i : Nat) : Option Wait := (v.people s)[i]?.bind v.wait?

/-- Whether an arm of a wait is ready, other than that of its signal. -/
def isOver (w : Wait) : Bool := v.closed s w.slot || (w.heeds && v.fired s)

/-- Whether the waits of two people meet. -/
def meets (i j : Nat) : Bool :=
  match v.waitOf? s i, v.waitOf? s j with
  | some w, some w' => w.meets w'
  | _, _ => false

/-- Person `i` goes on at `f`. -/
def change (f : P → P) (i : Nat) : S := v.seat s ((v.people s).modify i f)

/-- Person `i` hands its message to person `j`. -/
def hand? (i j : Nat) : Option S := do
  let sender ← (v.people s)[i]?
  let receiver ← (v.people s)[j]?
  some (v.seat s (((v.people s).set i (v.afterSend sender)).set j (v.afterReceive sender receiver)))

/-- A move of the place, unless somebody is at a select in it. -/
def aside? (m : M) : Option S :=
  if v.isExchange m || (v.stepper? m).any fun i => (v.waitOf? s i).isSome then none
  else v.rule? s m

end Place

section Selecting

variable (v : Venue S M P) (x : Selecting S)

/-- Those who are parked, and not woken in a new state of the place. -/
def stillParked (s : S) : List Nat :=
  x.parked.filter fun i => (v.waitOf? s i).all fun w => !v.isOver s w

/-- Person `i` meets person `j`, who is parked. -/
def meet? (i j : Nat) : Option (Selecting S) := do
  let w ← v.waitOf? x.place i
  if j ∈ x.parked ∧ v.meets x.place i j then
    (if w.sends then v.hand? x.place i j else v.hand? x.place j i).map fun s =>
      ⟨s, x.parked.filter (· ≠ j), x.retrying.filter (· ≠ i)⟩
  else none

/-- The wait of person `i` is interrupted. -/
def interrupt (i : Nat) : Selecting S :=
  ⟨v.change x.place v.interrupted i, x.parked, x.retrying.filter (· ≠ i)⟩

/-- The state after a move, if the move is possible. It is assumed of selects that to look at all
arms and to park is one move, and that only those who are parked are met. What is not assumed is
that a slot is open where somebody is met: no move asks for that. -/
def move? : Selecting.Move M → Option (Selecting S)
  | .aside m => (v.aside? x.place m).map fun s => { x with place := s, parked := v.stillParked x s }
  | .park i => do
    let w ← v.waitOf? x.place i
    if x.isAway i ∧ v.isOver x.place w = false ∧ ∀ j ∈ x.parked, v.meets x.place i j = false then
      some { x with place := v.change x.place v.lineUp i, parked := i :: x.parked }
    else none
  | .meet i j => if x.isAway i then v.meet? x i j else none
  | .quit i => do
    let w ← v.waitOf? x.place i
    if x.isAway i ∧ v.closed x.place w.slot then some (v.interrupt x i) else none
  | .heed i => do
    let w ← v.waitOf? x.place i
    if x.isAway i ∧ w.heeds ∧ v.fired x.place then some { x with retrying := i :: x.retrying }
    else none
  | .retry i (some j) => if i ∈ x.retrying then v.meet? x i j else none
  | .retry i none =>
    if i ∈ x.retrying ∧ ∀ j ∈ x.parked, v.meets x.place i j = false then some (v.interrupt x i)
    else none

/-- The state after all the moves of a run. -/
def run? : List (Selecting.Move M) → Selecting S → Option (Selecting S)
  | [], x => some x
  | m :: ms, x => (v.move? x m).bind (run? ms)

end Selecting

end Venue

/-! ## Arbitrary callers of one slot. -/

namespace Slot

/-- Whoever is bound to the slot stands in line with its assignment. -/
def Caller.lineUp : Caller → Caller
  | .offering a => .sending (.assignment a)
  | c => c

/-- The wait of a caller; there is only one slot. -/
def Caller.wait? (c : Caller) : Option Wait :=
  Wait.of? (c.lineUp.sends?.map (0, ·)) (c.receives?.map (0, ·))

/-- A desk with its callers. -/
def Desk.venue : Venue Desk Desk.Move Caller where
  people := Desk.callers
  seat d callers := { d with callers }
  closed d _ := d.slot.closed
  fired := Desk.fired
  wait? := Caller.wait?
  lineUp := Caller.lineUp
  afterSend c := c.lineUp.sends?.elim c Caller.afterSend
  afterReceive c c' := c.lineUp.sends?.elim c' Caller.afterReceive
  interrupted _ := .finished (.error .interrupted)
  rule? := Desk.move?
  stepper?
    | .step i => some i
    | _ => none
  isExchange
    | .exchange _ _ => true
    | _ => false

end Slot

/-! ## Everybody in an office. -/

namespace Person

/-- A customer who is bound to a slot stands in line with its assignment. -/
def lineUp : Person → Person
  | .customer c (.dealing stay slot .offering) => .customer c (.dealing stay slot .handing)
  | p => p

/-- The wait of a person at a slot. -/
def wait? (p : Person) : Option Wait := Wait.of? p.lineUp.sends? p.receives?

/-- The wait of a person at a slot was interrupted: a customer leaves, and a worker ends its shift.
-/
def interrupted : Person → Person
  | .customer c _ => .customer c (.leave (.failed .interrupted))
  | .worker id (.awaitingPublish served) => .worker id (.report id served)
  | .worker id (.serving served _ _) => .worker id (.stop id served .interrupted)
  | p => p

end Person

/-- An office with everybody in it. -/
def Floor.venue : Venue Floor Floor.Move Person where
  people := Floor.people
  seat f people := { f with people }
  closed f worker := f.premises.isSlotClosed worker
  fired f := f.premises.fired
  wait? := Person.wait?
  lineUp := Person.lineUp
  afterSend p := p.lineUp.afterSend
  afterReceive p p' := p.lineUp.sends?.elim p' fun (_, m) => p'.afterReceive m
  interrupted := Person.interrupted
  rule? := Floor.move?
  stepper?
    | .step i => some i
    | _ => none
  isExchange
    | .exchange _ _ => true
    | _ => false

end Postal
