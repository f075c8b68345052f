import Postal.Task

/-!
# Configuration of a day.

How many customers fit in, how many workers serve, how many customers come, how long a minute lasts,
and the seed of the draw. An office needs room for a customer and at least one worker.
-/

namespace Postal

/-- What a day is run with. -/
structure Config where
  capacity : Nat
  workerCount : Nat
  customerCount : Nat
  minute : Nat
  seed : Option Nat
  deriving DecidableEq, Repr

namespace Config

/-- The configuration of a day about which nothing is said. -/
def standard : Config where
  capacity := 10
  workerCount := 3
  customerCount := 50
  minute := 1000
  seed := none

/-- Why a configuration cannot be worked with. -/
inductive Problem where
  | noCapacity
  | noWorkers
  deriving DecidableEq, Repr

/-- The text of a problem. -/
def Problem.message : Problem → String
  | .noCapacity => "capacity must be greater than 0"
  | .noWorkers => "worker_count must be greater than 0"

/-- The first thing that is wrong with the configuration. -/
def problem? (c : Config) : Option Problem :=
  if c.capacity = 0 then some .noCapacity
  else if c.workerCount = 0 then some .noWorkers
  else none

/-- The configuration, provided that it can be worked with. -/
def validated (c : Config) : Except Problem Config :=
  match c.problem? with
  | some p => .error p
  | none => .ok c

/-- How long the service of a task takes, in milliseconds. -/
def serviceTime (c : Config) (t : Task) : Nat := t.duration c.minute

end Config

end Postal
