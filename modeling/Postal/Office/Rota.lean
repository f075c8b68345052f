import Postal.Office.Floor

/-!
# First come, first served on the floor.

Of all the interleavings, the one that a quiet office shows: whoever moved last goes on as far as
possible, and of those who wait for the same message the one who has waited longest gets it. People
who are busy go on only when nobody else can, in the order of their deadlines.
-/

namespace Postal

namespace Floor

/-- The move of person `i` when it is its turn: its announcement may end in a panic. -/
def turn? (f : Floor) (panics : Event → Bool) (i : Nat) : Option Move := do
  let person ← f.people[i]?
  match person.emits? with
  | some e => some (if panics e then .unwind i else .step i)
  | none => if (f.step? i).isSome then some (.step i) else none

/-- The first person in the order of `recent` that may move and can. -/
def nimble? (f : Floor) (panics : Event → Bool) (free : Person → Bool) (recent : List Nat) :
    Option Move :=
  recent.findSome? fun i => do
    let person ← f.people[i]?
    if free person && person.busyUntil?.isNone then f.turn? panics i else none

/-- The exchange between the two people who have waited longest. -/
def handOver? (f : Floor) (recent : List Nat) : Option Move :=
  let waiting := recent.reverse
  waiting.findSome? fun i => do
    let _ ← (← f.people[i]?).sends?
    waiting.findSome? fun j => if (f.exchange? i j).isSome then some (.exchange i j) else none

/-- The person who is busy until the earliest point in time. -/
def soonest? (f : Floor) : Option (Nat × Nat) :=
  f.people.zipIdx.foldl (fun best (person, i) =>
    match person.busyUntil?, best with
    | some deadline, none => some (deadline, i)
    | some deadline, some (earliest, j) =>
      some (if deadline < earliest then (deadline, i) else (earliest, j))
    | none, best => best) none

/-- The move that ends the earliest business. -/
def wake? (f : Floor) : Option Move := f.soonest?.map fun (_, i) => .step i

/-- Whose move it is. -/
def Move.people : Move → List Nat
  | .step i => [i]
  | .exchange i j => [i, j]
  | .unwind i => [i]
  | _ => []

end Floor

/-- A floor, and everybody on it in the order of their last moves, the last one first. -/
structure Rota where
  floor : Floor
  recent : List Nat
  deriving Repr

namespace Rota

/-- An office that opens with nobody in it. -/
def opening (o : Office) (clock : Nat) : Rota := ⟨.opening o clock, []⟩

/-- Puts those who have just moved first. -/
def touch (recent : List Nat) (movers : List Nat) : List Nat :=
  movers ++ recent.filter fun i => !movers.contains i

/-- Makes a move, if it is possible. -/
def move? (r : Rota) (m : Floor.Move) : Option Rota :=
  (r.floor.move? m).map fun floor => ⟨floor, touch r.recent m.people⟩

/-- One more person comes. -/
def join (r : Rota) (p : Person) : Rota :=
  ⟨r.floor.join p, r.floor.people.length :: r.recent⟩

/-- The next move of those who are not about to announce anything. -/
def advance? (r : Rota) : Option Rota :=
  let f := r.floor
  let silent : Person → Bool := fun p => p.emits?.isNone
  (((f.nimble? (fun _ => false) silent r.recent).orElse fun _ => f.handOver? r.recent).orElse
    fun _ => f.wake?).bind r.move?

/-- A person takes at most this many steps between two announcements. -/
def stride (f : Floor) : Nat := f.premises.workerCount + 40

/-- Everybody goes on until each waits, has ended, or is about to announce something. -/
def settle (r : Rota) : Rota :=
  runWhile advance? (r.floor.people.length * stride r.floor) r

/-- One more person comes and goes on as far as possible, and so do the others. -/
def enter (r : Rota) (p : Person) : Rota := (r.join p).settle

/-- Whether person `i` is about to announce something. -/
def holds? (r : Rota) (i : Nat) : Option Event := do (← r.floor.people[i]?).emits?

/-- Person `i` announces what it is about to, and goes on; nothing happens if it is not about to. -/
def announce (r : Rota) (i : Nat) : Rota :=
  if (r.holds? i).isSome then ((r.move? (.step i)).getD r).settle else r

/-- The announcement of person `i` ends in a panic; nothing happens if it is not about to announce.
-/
def panic (r : Rota) (i : Nat) : Rota :=
  if (r.holds? i).isSome then ((r.move? (.unwind i)).getD r).settle else r

/-- The shutdown fires. -/
def fire (r : Rota) : Rota := settle { r with floor := r.floor.fire }

/-- Somebody closes the office. -/
def close (r : Rota) : Rota := r.enter .closes

end Rota

end Postal
