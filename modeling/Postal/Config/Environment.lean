import Postal.Config
import Postal.Text.Blank
import Postal.Text.Split
import Postal.Text.Unsigned
import Postal.Text.Utf8
import Postal.Text.Visible

/-!
# Configuration from the environment.

Five variables may each replace one field of the standard configuration. Their values are numbers,
with white space around them. The first variable that is no number is to blame, in the order of the
fields; only when all of them are fine does it matter whether the configuration can be worked with.
-/

namespace Postal

/-- The value of a variable: text, or bytes that are not all text. -/
inductive Setting where
  | text (s : String)
  | bytes (bs : List UInt8)
  deriving DecidableEq, Repr

/-- The value that some bytes are: text if they are. -/
def Setting.ofBytes (bs : List UInt8) : Setting :=
  match Text.ofUtf8? bs with
  | some cs => .text (String.ofList cs)
  | none => .bytes bs

/-- The variables that are set. -/
abbrev Environment := String → Option Setting

namespace Environment

/-- Nothing is set. -/
def empty : Environment := fun _ => none

/-- The environment with one more variable, or another value of it. -/
def set (env : Environment) (name : String) (s : Setting) : Environment :=
  fun n => if n = name then some s else env n

/-- A binding within a block: a name, an equals sign and a value. A name is not empty and may start
with an equals sign. -/
def binding? (bs : List UInt8) : Option (String × Setting) :=
  match bs with
  | [] => none
  | first :: rest =>
    match rest.span (· != 61) with
    | (_, []) => none
    | (name, _ :: value) =>
      (Text.ofUtf8? (first :: name)).map fun cs => (String.ofList cs, .ofBytes value)

/-- The environment of a block of bindings, each of them ended by a zero. The first binding of a
name counts. -/
def ofBlock (bs : List UInt8) : Environment :=
  fun name => ((Text.split (· == 0) bs).filterMap binding?).lookup name

/-- The text of a variable that is set to text. -/
def text? (env : Environment) (name : String) : Option String :=
  match env name with
  | some (.text s) => some s
  | _ => none

end Environment

namespace Config

/-- Bytes that are not all text, in double quotes, the stray ones in hexadecimal. -/
def quotedBytes (bs : List UInt8) : String :=
  String.ofList ('"' :: (Text.utf8Parts bs).flatMap (fun
    | .char c => Text.quotedChar c
    | .stray b =>
      ['\\', 'x', (Nat.digitChar (b.toNat / 16)).toUpper,
        (Nat.digitChar (b.toNat % 16)).toUpper]) ++
    ['"'])

/-- Why a configuration cannot be taken from the environment. -/
inductive EnvironmentProblem where
  | notText (name : String) (bytes : List UInt8)
  | notANumber (name value : String) (reason : Text.NotANumber)
  | invalid (p : Problem)
  deriving DecidableEq, Repr

/-- The text of the problem. -/
def EnvironmentProblem.message : EnvironmentProblem → String
  | .notText name bytes =>
    name ++ ": environment variable was not valid unicode: " ++ quotedBytes bytes
  | .notANumber name value reason => name ++ "=" ++ Text.quoted value ++ ": " ++ reason.message
  | .invalid p => p.message

/-- The number that a variable is set to, if it is set. -/
def numberSetting (env : Environment) (name : String) : Except EnvironmentProblem (Option Nat) :=
  match env name with
  | none => .ok none
  | some (.bytes bs) => .error (.notText name bs)
  | some (.text s) =>
    match Text.unsigned (Text.trim s.toList) with
    | .ok n => .ok (some n)
    | .error reason => .error (.notANumber name s reason)

/-- The variable of the capacity. -/
def capacityVariable : String := "POST_OFFICE_CAPACITY"

/-- The variable of the number of workers. -/
def workersVariable : String := "POST_OFFICE_WORKERS"

/-- The variable of the number of customers. -/
def customersVariable : String := "POST_OFFICE_CUSTOMERS"

/-- The variable of the length of a minute. -/
def minuteVariable : String := "POST_OFFICE_MILLIS_PER_MINUTE"

/-- The variable of the seed. -/
def seedVariable : String := "POST_OFFICE_SEED"

/-- The configuration that an environment describes. -/
def ofEnvironment (env : Environment) : Except EnvironmentProblem Config := do
  let capacity ← numberSetting env capacityVariable
  let workers ← numberSetting env workersVariable
  let customers ← numberSetting env customersVariable
  let minute ← numberSetting env minuteVariable
  let seed ← numberSetting env seedVariable
  let c : Config := {
    capacity := capacity.getD standard.capacity
    workerCount := workers.getD standard.workerCount
    customerCount := customers.getD standard.customerCount
    minute := minute.getD standard.minute
    seed := seed.or standard.seed }
  c.validated.mapError .invalid

end Config

end Postal
