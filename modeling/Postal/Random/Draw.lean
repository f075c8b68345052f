import Postal.Random.Seed
import Postal.Task

/-!
# Drawing tasks.

A word of the stream is scaled to one of the tasks by a widening product. When the low half of the
product is so close to its end that the next word could still carry into the high half, that word is
taken too.
-/

namespace Postal.Random

/-- An index below `bound`, drawn from the stream at a position, and the position after it. -/
def index (words : Nat → UInt32) (bound position : Nat) : Nat × Nat :=
  let product := (words position).toNat * bound
  let high := product / Nat.pow 2 32
  let low := product % Nat.pow 2 32
  if Nat.pow 2 32 - bound < low then
    let correction := (words (position + 1)).toNat * bound / Nat.pow 2 32
    (if Nat.pow 2 32 ≤ low + correction then high + 1 else high, position + 2)
  else (high, position + 1)

/-- The task at an index of `Task.all`; every later index stands for the last one. -/
def taskAt : Nat → Task
  | 0 => .buyStamps
  | 1 => .mailLetter
  | _ => .mailPackage

/-- So many tasks, drawn one after another from a position on. -/
def draw (words : Nat → UInt32) : Nat → Nat → List Task
  | 0, _ => []
  | count + 1, position =>
    let (i, position) := index words Task.all.length position
    taskAt i :: draw words count position

/-- So many tasks of a seed. -/
def tasks (seed count : Nat) : List Task := draw (stream seed) count 0

end Postal.Random
