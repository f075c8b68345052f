import Postal.Config
import Postal.Random.Draw

/-!
# The plan of a day.

A configuration, and possibly the tasks of the customers; without them they are drawn.
-/

namespace Postal

/-- What a day is to be. -/
structure Plan where
  config : Config
  tasks? : Option (List Task)
  deriving DecidableEq, Repr

namespace Plan

/-- A day whose tasks are drawn. -/
def ofConfig (c : Config) : Plan := ⟨c, none⟩

/-- A day with these tasks, one customer for each. -/
def withTasks (p : Plan) (tasks : List Task) : Plan where
  config := { p.config with customerCount := tasks.length }
  tasks? := some tasks

/-- The tasks of the day. Drawn tasks come from the seed of the configuration, or else from
`chance`. -/
def tasks (p : Plan) (chance : Nat) : List Task :=
  p.tasks?.getD (Random.tasks (p.config.seed.getD chance) p.config.customerCount)

/-- The customers of the day, numbered in the order of their tasks. -/
def customers (p : Plan) (chance : Nat) : List Customer := Customer.ofTasks (p.tasks chance)

end Plan

end Postal
