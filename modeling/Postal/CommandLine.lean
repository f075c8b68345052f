import Postal.CommandLine.Directory
import Postal.Config.EnvFile
import Postal.Config.Json
import Postal.Day.Rota
import Postal.Log.Filter
import Postal.Report.Summary

/-!
# The command line.

Runs one day and prints its summary. The configuration comes from the file that a variable names, or
else from the variables; a file that sets variables is loaded first. Meanwhile the events are
logged.
-/

namespace Postal.CommandLine

/-- The variable that names the file of the configuration. -/
def fileVariable : String := "POST_OFFICE_CONFIG"

/-- Why there is no summary. -/
inductive Problem where
  | unreadable (path : String) (p : FileProblem)
  | badFile (path : String) (p : Config.TextProblem)
  | badEnvironment (p : Config.EnvironmentProblem)
  | failedDay (f : Fault)

/-- What was tried, and why it failed. -/
def Problem.explanation : Problem → String × Option String
  | .unreadable path p => ("reading configuration from " ++ path, some p.message)
  | .badFile path p => ("parsing configuration from " ++ path, some p.message)
  | .badEnvironment p => ("reading configuration from environment", some p.message)
  | .failedDay f => (f.message, none)

/-- The text of the problem. -/
def Problem.message (p : Problem) : String :=
  let (what, cause?) := p.explanation
  "Error: " ++ what ++ (cause?.map fun cause => "\n\nCaused by:\n    " ++ cause).getD "" ++ "\n"

/-- The configuration of the day. -/
def config (env : Environment) (files : Files) : Except Problem Config :=
  match env.text? fileVariable with
  | some path => do
    let text ← (files.text path).mapError (.unreadable path)
    (Config.ofText text).mapError (.badFile path)
  | none => (Config.ofEnvironment env).mapError .badEnvironment

/-- How a run ends. -/
inductive Result where
  | finished (r : Report) (log : List Log.Line)
  | failed (p : Problem) (log : List Log.Line)
  /-- The program itself gives out. -/
  | crashed

/-- What chance and the clock contribute to a run. -/
structure Circumstances where
  chance : Nat
  runId : RunId
  clock : Nat

/-- A day with a configuration, and what is logged of it. -/
def runDay (c : Config) (filter : Log.Filter) (around : Circumstances) : Result :=
  match Day.opening (.ofConfig c) around.chance around.runId around.clock with
  | .error f => .failed (.failedDay f) []
  | .ok d =>
    let d := d.finish fun _ => false
    let events := d.floor.premises.log.map (Log.Line.ofDayEvent around.runId)
    let shown (ls : List Log.Line) := ls.filter filter.shows
    match d.ending? with
    | some (.returned r) => .finished r (shown (events ++ [.ofReport r]))
    | some (.failed f) => .failed (.failedDay f) (shown events)
    | _ => .crashed

/-- A run in an environment. The filter of the log is chosen before the file of variables, whose
bytes are `bindings`, is loaded. -/
def run (env : Environment) (bindings : List UInt8) (files : Files) (around : Circumstances) :
    Result :=
  let filter := Log.Filter.ofEnvironment env
  match EnvFile.load? env bindings with
  | none => .crashed
  | some env =>
    match config env files with
    | .error p => .failed p []
    | .ok c => runDay c filter around

namespace Result

/-- The code with which the program exits. -/
def exitCode : Result → UInt32
  | .finished _ _ => 0
  | .failed _ _ => 1
  | .crashed => 101

/-- The lines that were logged. -/
def log : Result → List Log.Line
  | .finished _ log => log
  | .failed _ log => log
  | .crashed => []

/-- What is printed in the end. -/
def output : Result → String
  | .finished r _ => r.summaryText
  | _ => ""

/-- What is printed about a failure. -/
def errors : Result → String
  | .failed p _ => p.message
  | _ => ""

end Result

end Postal.CommandLine
