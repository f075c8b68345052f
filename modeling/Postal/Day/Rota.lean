import Postal.Day

/-!
# First come, first served for a day.

The interleaving that a day shows when everybody moves as soon as possible: people first, then
whoever has ended reports, then the driver goes on, and only when all of them wait does time pass
for those who are busy.
-/

namespace Postal.Day

/-- A day, and everybody in it in the order of their last moves, the last one first. -/
structure Course where
  day : Day
  recent : List Nat
  deriving Repr

namespace Course

/-- Whoever has ended and not reported yet, in the order of `recent`. -/
def unposted? (c : Course) : Option Move :=
  c.recent.findSome? fun i => if (c.day.post? i).isSome then some (.post i) else none

/-- The next move. An announcement for which `panics` holds ends in a panic. -/
def choose? (panics : Event → Bool) (c : Course) : Option Move :=
  let f := c.day.floor
  (((((f.nimble? panics (fun _ => true) c.recent).orElse fun _ =>
    f.handOver? c.recent).bind Move.ofFloor?).orElse fun _ =>
    c.unposted?).orElse fun _ =>
    if c.day.drive?.isSome then
      some (if c.day.emits?.any panics then .unwindDriver else .drive)
    else none).orElse fun _ =>
    f.wake?.bind Move.ofFloor?

/-- The order of the last moves after a move. Whoever has reported is left out, and somebody who has
just come is first. -/
def order (c : Course) (m : Move) (after : Day) : List Nat :=
  let present := c.day.floor.people.length
  match m with
  | .step i => Rota.touch c.recent [i]
  | .exchange i j => Rota.touch c.recent [i, j]
  | .unwind i => Rota.touch c.recent [i]
  | .post i => c.recent.filter (· != i)
  | _ => if present < after.floor.people.length then present :: c.recent else c.recent

/-- The day after the next move. A day that has ended goes no further. -/
def advance? (panics : Event → Bool) (c : Course) : Option Course := do
  if c.day.ending?.isSome then none
  let m ← c.choose? panics
  let day ← c.day.move? m
  some ⟨day, c.order m day⟩

end Course

/-- A day takes fewer moves than this. -/
def lengthBound (workers customers : Nat) : Nat := (workers + customers + 1) * (workers + 100)

/-- The day as it ends. -/
def finish (panics : Event → Bool) (d : Day) : Day :=
  (runWhile (Course.advance? panics) (lengthBound d.config.workerCount d.customers.length)
    ⟨d, []⟩).day

end Postal.Day
