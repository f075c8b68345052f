import Postal.Config.Environment
import Postal.Log.Directive

/-!
# Which lines of a log are shown.

A filter is a list of rules between commas; of two rules that ask for the same the later one stands.
A line is shown if it lies within a span for which some rule lets it through. Otherwise the rule
that says most about the line decides.
-/

namespace Postal.Log

/-- The rules by which lines are shown, no two of which ask for the same. -/
abbrev Filter := List Directive

namespace Filter

/-- What is shown when nothing is said. -/
def standard : Filter := [.ofLevel .info]

/-- The rules without those that a later one replaces. -/
def standing : List Directive → Filter
  | [] => []
  | d :: ds => if ds.any d.asksSame then standing ds else d :: standing ds

/-- Reads a filter. One without any rule lets only errors through. -/
def ofText? (s : String) : Option Filter := do
  let texts := (Text.split (· == ',') s.toList).filter (!·.isEmpty)
  let rules ← texts.mapM Directive.ofChars?
  some (if rules.isEmpty then [.ofLevel .error] else standing rules)

/-- The rule that decides about a line. -/
def deciding? (f : Filter) (l : Line) : Option Directive :=
  (f.filter (·.isForLine l)).foldl (fun best d =>
    if best.all (·.yieldsTo d) then some d else best) none

/-- Whether a line is let through within one of its spans. -/
def admitsWithin (f : Filter) (l : Line) : Bool :=
  l.within.any fun s => f.any fun d => d.isForSpan s && d.level.admits l.level

/-- Whether a line is shown. -/
def shows (f : Filter) (l : Line) : Bool :=
  f.admitsWithin l || (f.deciding? l).any fun d => d.level.admits l.level

/-- The variable of the filter. -/
def filterVariable : String := "RUST_LOG"

/-- The filter that an environment asks for; one that cannot be read counts as none. -/
def ofEnvironment (env : Environment) : Filter :=
  ((env.text? filterVariable).bind ofText?).getD standard

end Filter

end Postal.Log
