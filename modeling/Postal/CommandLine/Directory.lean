import Postal.Text.Utf8

/-!
# Reading files.

Why a file cannot be read as text, and a directory in which paths are looked up: blank steps and
single dots stay where they are, and two dots lead out of it, where nothing is known but that it is
a directory.
-/

namespace Postal.CommandLine

/-- Why a file cannot be read. -/
inductive FileProblem where
  | missing
  | notADirectory
  | isDirectory
  | nameTooLong
  | notText
  | other (text : String)
  deriving DecidableEq, Repr

/-- The text of the problem. -/
def FileProblem.message : FileProblem → String
  | .missing => "No such file or directory (os error 2)"
  | .notADirectory => "Not a directory (os error 20)"
  | .isDirectory => "Is a directory (os error 21)"
  | .nameTooLong => "File name too long (os error 36)"
  | .notText => "stream did not contain valid UTF-8"
  | .other text => text

/-- The bytes of files, looked up by their paths. -/
abbrev Files := String → Except FileProblem (List UInt8)

/-- The text of a file. -/
def Files.text (files : Files) (path : String) : Except FileProblem String := do
  match Text.ofUtf8? (← files path) with
  | some cs => .ok (String.ofList cs)
  | none => .error .notText

/-- A directory with some files in it. -/
structure Directory where
  files : List (String × List UInt8)

namespace Directory

/-- The steps of a path between slashes. -/
def steps (path : String) : List String := path.splitOn "/"

/-- How many bytes a path may take, and one step of it. -/
def pathLimit : Nat := 4095

/-- How many bytes one step of a path may take. -/
def stepLimit : Nat := 255

/-- Where a path leads to: into the directory, or out of it. -/
inductive Place where
  | inside
  | outside
  | file (bytes : List UInt8)

/-- One step on the way. -/
def step (d : Directory) : Place → String → Except FileProblem Place
  | .file _, _ => .error .notADirectory
  | place, name =>
    if name = "" ∨ name = "." then .ok place
    else if name = ".." then .ok .outside
    else if stepLimit < name.utf8ByteSize then .error .nameTooLong
    else
      match place, d.files.lookup name with
      | .inside, some bytes => .ok (.file bytes)
      | _, _ => .error .missing

/-- What is found at a path. -/
def read (d : Directory) : Files := fun path => do
  if path = "" then .error .missing
  else if pathLimit < path.utf8ByteSize then .error .nameTooLong
  else
    let start := if path.startsWith "/" then Place.outside else .inside
    match ← (steps path).foldlM d.step start with
    | .file bytes => .ok bytes
    | _ => .error .isDirectory

end Directory

end Postal.CommandLine
