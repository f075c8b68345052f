import Postal.Bounds

/-!
# Tasks, customers and assignments.

A task fixes how long its service takes and whether it needs the scale. A customer has an id and one
task; an assignment is what a customer hands over to a worker.
-/

namespace Postal

/-- What a customer has come to do. -/
inductive Task where
  | buyStamps
  | mailLetter
  | mailPackage
  deriving DecidableEq, Repr

namespace Task

/-- Every task, in the order in which draws and counts go through them. -/
def all : List Task := [.buyStamps, .mailLetter, .mailPackage]

theorem mem_all (t : Task) : t ∈ all := by cases t <;> decide

/-- How long the service takes, in simulated seconds. -/
def seconds : Task → Nat
  | .buyStamps => 60
  | .mailLetter => 90
  | .mailPackage => 120

/-- How long the service takes in milliseconds, when a simulated minute lasts `minute` milliseconds.
The product stays at the largest word before it is divided. -/
def duration (t : Task) (minute : Nat) : Nat := min (t.seconds * minute) wordMax / 60

/-- Only a package has to be weighed. -/
def needsScale : Task → Bool
  | .mailPackage => true
  | _ => false

/-- What the customer asks for. -/
def request : Task → String
  | .buyStamps => "buy stamps"
  | .mailLetter => "mail a letter"
  | .mailPackage => "mail a package"

/-- What the worker is doing meanwhile. -/
def progressive : Task → String
  | .buyStamps => "buying stamps"
  | .mailLetter => "mailing a letter"
  | .mailPackage => "mailing a package"

/-- The place of the task in `all`. -/
def index : Task → Nat
  | .buyStamps => 0
  | .mailLetter => 1
  | .mailPackage => 2

end Task

/-- Somebody who comes with one task. -/
structure Customer where
  id : Nat
  task : Task
  deriving DecidableEq, Repr

/-- What a customer hands over to a worker. -/
structure Assignment where
  customer : Nat
  task : Task
  deriving DecidableEq, Repr

/-- The assignment that a customer hands over. -/
def Customer.assignment (c : Customer) : Assignment := ⟨c.id, c.task⟩

/-- The tasks of a day as customers, numbered from 0 in the order of the list. -/
def Customer.ofTasks (tasks : List Task) : List Customer :=
  tasks.mapIdx fun id task => ⟨id, task⟩

/-- A completed stay: who served the customer, the ticket drawn at the gate, and when the stay began
and ended. -/
structure Visit where
  customer : Customer
  worker : Nat
  ticket : Nat
  admittedAt : Nat
  departedAt : Nat
  deriving DecidableEq, Repr

/-- What a worker reports at the end of its shift. -/
structure WorkerReport where
  worker : Nat
  served : Nat
  deriving DecidableEq, Repr

end Postal
