import Postal.CommandLine

/-!
# The program.

Gathers what a run depends on, and prints what it answers.
-/

namespace Postal.CommandLine

/-- The problem that an error of the system stands for. -/
def FileProblem.ofError : IO.Error → FileProblem
  | .noFileOrDirectory _ _ _ => .missing
  | .inappropriateType _ code _ => if code = 21 then .isDirectory else .notADirectory
  | .permissionDenied _ code _ => .other ("Permission denied (os error " ++ toString code ++ ")")
  | e => .other (toString e)

/-- Reads a file. -/
def readFile (path : String) : IO (Except FileProblem (List UInt8)) := do
  try
    return .ok (← IO.FS.readBinFile path).toList
  catch e =>
    return .error (.ofError e)

/-- The bytes of the nearest file `.env`, in the working directory or above it. -/
def readBindings : IO (List UInt8) := do
  let depth := ((← IO.currentDir).toString.splitOn "/").length
  for up in List.range depth do
    if let .ok bytes ← readFile (String.join (List.replicate up "../") ++ ".env") then
      return bytes
  return []

/-- Random bits, as many as there are in so many bytes. -/
def randomBits (bytes : USize) : IO Nat := do
  return (← IO.getRandomBytes bytes).toList.foldl (fun n b => n * 256 + b.toNat) 0

/-- The files that a run may read: the one that the environment names. -/
def filesFor (env : Environment) (bindings : List UInt8) : IO Files := do
  match (EnvFile.load? env bindings).bind (·.text? fileVariable) with
  | none => return fun _ => .error .missing
  | some path =>
    let content ← readFile path
    return fun p => if p = path then content else .error .missing

end Postal.CommandLine

open Postal CommandLine in
/-- Runs one day. -/
def main : IO UInt32 := do
  let env := match ← readFile "/proc/self/environ" with
    | .ok block => Environment.ofBlock block
    | .error _ => Environment.empty
  let bindings ← readBindings
  let files ← filesFor env bindings
  let around : Circumstances := {
    chance := ← randomBits 8
    runId := .ofChance (← randomBits 16)
    clock := ← IO.monoMsNow }
  let result := run env bindings files around
  for line in result.log do
    IO.println line.text
  IO.print result.output
  IO.eprint result.errors
  return result.exitCode
