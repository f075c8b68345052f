import Postal.Json.Record
import Postal.Json.Value
import Postal.Task

/-!
# Tasks and what is made of them in JSON.

A task is written as its name in lower case with underscores; customers, assignments, visits and the
reports of workers are records.
-/

namespace Postal

open Json (Decoder Value required word stamp record)

/-- A count or an id that has to fit into the address space. -/
def sizeDecoder : Decoder Nat := word "usize"

/-- A count or a length of time of 64 binary digits. -/
def longDecoder : Decoder Nat := word "u64"

namespace Task

/-- The name of a task in JSON. -/
def jsonName : Task → String
  | .buyStamps => "buy_stamps"
  | .mailLetter => "mail_letter"
  | .mailPackage => "mail_package"

/-- Every task with its name. -/
def named : List (String × Task) := all.map fun t => (t.jsonName, t)

/-- A task as JSON. -/
def toJson (t : Task) : Value := .string t.jsonName

/-- A task from JSON. -/
def decoder : Decoder Task := Json.oneOf named

end Task

namespace Customer

/-- A customer as JSON. -/
def toJson (c : Customer) : Value := .object [("id", .number c.id), ("task", c.task.toJson)]

/-- A customer from JSON. -/
def decoder : Decoder Customer := fun n =>
  (record "struct Customer"
    (required "id" sizeDecoder (required "task" Task.decoder .none)) n).map
    fun (id, task, _) => ⟨id, task⟩

end Customer

namespace Assignment

/-- An assignment as JSON. -/
def toJson (a : Assignment) : Value :=
  .object [("customer_id", .number a.customer), ("task", a.task.toJson)]

/-- An assignment from JSON. -/
def decoder : Decoder Assignment := fun n =>
  (record "struct Assignment"
    (required "customer_id" sizeDecoder (required "task" Task.decoder .none)) n).map
    fun (customer, task, _) => ⟨customer, task⟩

end Assignment

namespace Visit

/-- A visit as JSON. -/
def toJson (v : Visit) : Value :=
  .object [("customer", v.customer.toJson), ("worker", .number v.worker),
    ("ticket", .number v.ticket),
    ("admitted_at_ms", .number v.admittedAt), ("departed_at_ms", .number v.departedAt)]

/-- A visit from JSON. -/
def decoder : Decoder Visit := fun n =>
  (record "struct Visit"
    (required "customer" Customer.decoder <| required "worker" sizeDecoder <|
      required "ticket" longDecoder <| required "admitted_at_ms" stamp <|
      required "departed_at_ms" stamp .none) n).map
    fun (customer, worker, ticket, admittedAt, departedAt, _) =>
      ⟨customer, worker, ticket, admittedAt, departedAt⟩

end Visit

namespace WorkerReport

/-- The report of a worker as JSON. -/
def toJson (r : WorkerReport) : Value :=
  .object [("worker", .number r.worker), ("served", .number r.served)]

/-- The report of a worker from JSON. -/
def decoder : Decoder WorkerReport := fun n =>
  (record "struct WorkerReport"
    (required "worker" sizeDecoder (required "served" longDecoder .none)) n).map
    fun (worker, served, _) => ⟨worker, served⟩

end WorkerReport

end Postal
