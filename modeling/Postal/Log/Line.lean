import Postal.Event
import Postal.Json.Value
import Postal.Log.Level
import Postal.Report.RunId

/-!
# The lines of a log.

A line has a level and a target, some fields, and a message; it may lie within spans, which are
stretches of work. By all of these but the message filters choose.
-/

namespace Postal.Log

/-- A stretch of work, with the text of what it is about. -/
structure Span where
  name : String
  target : String
  fields : List (String × String)

/-- The span of what leads a day: that customers and workers are told to start, and awaited. What
they do themselves lies outside of it. -/
def Span.ofDay (id : RunId) : Span where
  name := "simulation"
  target := "post_office::runtime::simulation"
  fields := [("run_id", id.text)]

/-- One line of a log. A field may be without a value. -/
structure Line where
  level : Level
  target : String
  fields : List (String × Option Json.Value)
  message : String
  within : List Span

namespace Line

/-- The names of the fields, of which the message is one. -/
def fieldNames (l : Line) : List String := "message" :: l.fields.map (·.1)

/-- The target of events. -/
def eventTarget : String := "post_office::events"

/-- The target of what is said about a day as a whole. -/
def dayTarget : String := "post_office"

/-- What is logged for an event. -/
def ofEvent (e : TimedEvent) : Line where
  level := .info
  target := eventTarget
  fields := [
    ("at_ms", some (.string (toString e.atMs))),
    ("customer", e.event.customer?.map .number),
    ("worker", e.event.worker?.map .number)]
  message := e.event.line
  within := []

/-- What is logged for an event of a day. That a customer was awaited is said by what leads the day,
and all else by the customers and the workers. -/
def ofDayEvent (id : RunId) (e : TimedEvent) : Line :=
  match e.event with
  | .customerJoined _ => { ofEvent e with within := [.ofDay id] }
  | _ => ofEvent e

/-- What is logged at the end of a day. -/
def ofReport (r : Report) : Line where
  level := .info
  target := dayTarget
  fields := [("run_id", some (.string r.runId.text)), ("elapsed_ms", some (.number r.elapsedMs))]
  message := "Simulation complete"
  within := []

/-- The line as text. -/
def text (l : Line) : String :=
  l.level.title ++ " " ++ String.join (l.within.map fun s => s.name ++ ": ") ++ l.target ++ ": " ++
    l.message ++
    String.join (l.fields.filterMap fun (name, v) => v.map fun v => " " ++ name ++ "=" ++ v.text)

end Line

end Postal.Log
