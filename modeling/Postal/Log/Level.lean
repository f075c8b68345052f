import Postal.Text.Unsigned

/-!
# Levels of detail.
-/

namespace Postal.Log

/-- How much detail a line has, or is let through. -/
inductive Level where
  | off
  | error
  | warn
  | info
  | debug
  | trace
  deriving DecidableEq, Repr

namespace Level

/-- The levels from the least detail to the most. -/
def all : List Level := [.off, .error, .warn, .info, .debug, .trace]

/-- The place of the level in `all`. -/
def rank : Level → Nat
  | .off => 0
  | .error => 1
  | .warn => 2
  | .info => 3
  | .debug => 4
  | .trace => 5

/-- The word for the level. -/
def title : Level → String
  | .off => "OFF"
  | .error => "ERROR"
  | .warn => "WARN"
  | .info => "INFO"
  | .debug => "DEBUG"
  | .trace => "TRACE"

/-- The level of a number or of a word in either case of letters. -/
def ofChars? (cs : List Char) : Option Level :=
  match Text.unsigned cs with
  | .ok n => all[n]?
  | .error _ => all.find? fun l => l.title.toList = cs.map Char.toUpper

/-- Whether what is let through up to this level includes another. -/
def admits (limit l : Level) : Bool := l.rank ≤ limit.rank

end Level

end Postal.Log
