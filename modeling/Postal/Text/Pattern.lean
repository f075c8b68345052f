/-!
# Patterns of text.

A pattern is written with characters that stand for themselves, `.` for any character of a line,
classes in square brackets, escapes, groups, alternatives behind `|`, and `*`, `+` and `?` for
repetition. A repetition takes as much as it can, or with a second `?` as little as it can. Patterns
with braces, flags, names or word boundaries are refused.

Where a pattern fits a text in several ways, they are tried in a fixed order, and only the first one
at the first place counts.
-/

namespace Postal.Text

/-- A set of characters: those in one of the ranges, or all others. -/
structure CharClass where
  others : Bool
  ranges : List (Char × Char)
  deriving DecidableEq, Repr

/-- Whether a character is in the set. -/
def CharClass.contains (s : CharClass) (c : Char) : Bool :=
  s.others != s.ranges.any fun (first, last) => first ≤ c && c ≤ last

/-- A pattern of text. -/
inductive Pattern where
  | empty
  | start
  | finish
  | oneOf (s : CharClass)
  | seq (a b : Pattern)
  | or (a b : Pattern)
  /-- Any number of times, the fewest first if `lazy`. -/
  | repeated (lazy : Bool) (a : Pattern)
  deriving DecidableEq, Repr

namespace Pattern

/-! ## Fitting. -/

/-- Repeats a step on a text. The texts that it leads to are gathered in the order in which they are
preferred; a text that was reached before is not gone into again. -/
def repeatFrom (lazy : Bool) (step : List Char → List (List Char)) :
    Nat → List (List Char) → List Char → List (List Char)
  | 0, seen, cs => if seen.contains cs then seen else seen ++ [cs]
  | fuel + 1, seen, cs =>
    if seen.contains cs then seen
    else
      let next := (step cs).filter fun rest => rest.length < cs.length
      if lazy then next.foldl (repeatFrom lazy step fuel) (seen ++ [cs])
      else next.foldl (repeatFrom lazy step fuel) seen ++ [cs]

/-- What can be left of a text behind the pattern, the preferred rest first. The whole text has
`total` characters. -/
def rests (total : Nat) : Pattern → List Char → List (List Char)
  | .empty, cs => [cs]
  | .start, cs => if cs.length = total then [cs] else []
  | .finish, cs => if cs.isEmpty then [cs] else []
  | .oneOf _, [] => []
  | .oneOf s, c :: cs => if s.contains c then [cs] else []
  | .seq a b, cs => ((a.rests total cs).flatMap (b.rests total)).eraseDups
  | .or a b, cs => (a.rests total cs ++ b.rests total cs).eraseDups
  | .repeated lazy a, cs => repeatFrom lazy (a.rests total) cs.length [] cs

/-- What is left of a text behind the first place where the pattern fits. -/
def firstRest? (p : Pattern) (total : Nat) : List Char → Option (List Char)
  | [] => (p.rests total []).head?
  | c :: cs => (p.rests total (c :: cs)).head?.or (p.firstRest? total cs)

/-- Whether the first fit of the pattern in a text reaches to its end. -/
def fitsEnd (p : Pattern) (cs : List Char) : Bool := p.firstRest? cs.length cs = some []

/-! ## Reading. -/

/-- The class of one character. -/
def char (c : Char) : Pattern := .oneOf ⟨false, [(c, c)]⟩

/-- The digits, the white space and the characters of words, by the letter of their escape. -/
def namedRanges? : Char → Option (List (Char × Char))
  | 'd' => some [('0', '9')]
  | 's' => some [('\t', '\x0d'), (' ', ' ')]
  | 'w' => some [('0', '9'), ('A', 'Z'), ('_', '_'), ('a', 'z')]
  | _ => none

/-- The character that an escape stands for. -/
def escaped? : Char → Option Char
  | 'n' => some '\n'
  | 't' => some '\t'
  | 'r' => some '\x0d'
  | 'f' => some '\x0c'
  | 'v' => some '\x0b'
  | 'a' => some '\x07'
  | c => if c.toNat < 0x80 && !c.isAlphanum && c != '<' && c != '>' then some c else none

/-- The pattern that an escape stands for. -/
def ofEscape? (c : Char) : Option Pattern :=
  match namedRanges? c.toLower with
  | some ranges => some (.oneOf ⟨c.isUpper, ranges⟩)
  | none =>
    if c == 'A' then some .start
    else if c == 'z' then some .finish
    else (escaped? c).map char

/-- A group that is being read: the alternatives that are complete, and the parts of the present
one, the latest first. -/
structure Group where
  done : List Pattern
  parts : List Pattern

namespace Group

/-- Nothing is read yet. -/
def blank : Group := ⟨[], []⟩

/-- One more part. -/
def add (g : Group) (p : Pattern) : Group := { g with parts := p :: g.parts }

/-- The alternative that is being read. -/
def alternative (g : Group) : Pattern := g.parts.foldl (fun rest p => .seq p rest) .empty

/-- The next alternative. -/
def next (g : Group) : Group := ⟨g.alternative :: g.done, []⟩

/-- The pattern of the group. -/
def pattern (g : Group) : Pattern := g.done.foldl (fun rest p => .or p rest) g.alternative

end Group

/-- Where the reader of a class is. -/
inductive ClassAt where
  /-- Behind the bracket, where a circumflex has its meaning. -/
  | opened
  /-- Behind that, where a closing bracket stands for itself. -/
  | first
  | plain
  | escape
  /-- Behind a character, which may start a range. -/
  | single (c : Char)
  /-- Behind a hyphen that may make a range. -/
  | range (c : Char)
  deriving DecidableEq, Repr

/-- Where the reader is. -/
inductive Mode where
  | plain
  | escape
  /-- Behind an opening parenthesis. -/
  | opened
  /-- Behind the question mark that follows it. -/
  | flags
  /-- Behind a repetition, which a question mark makes lazy. -/
  | repetition (again : Bool → Pattern)
  | charClass (place : ClassAt) (s : CharClass)

/-- The reader: where it is, the innermost group, and those around it. -/
structure Reader where
  mode : Mode
  group : Group
  around : List Group

namespace Reader

/-- The reader behind one more part. -/
def add (r : Reader) (p : Pattern) : Reader := { r with mode := .plain, group := r.group.add p }

/-- The reader behind a sign of repetition, for which there has to be something to repeat. -/
def repeating? (r : Reader) (again : Pattern → Bool → Pattern) : Option Reader :=
  match r.group.parts with
  | [] => none
  | p :: parts => some { r with mode := .repetition (again p), group := { r.group with parts } }

/-- The next character outside of classes and escapes. -/
def plain? (r : Reader) (c : Char) : Option Reader :=
  match c with
  | '\\' => some { r with mode := .escape }
  | '[' => some { r with mode := .charClass .opened ⟨false, []⟩ }
  | '(' => some ⟨.opened, .blank, r.group :: r.around⟩
  | ')' =>
    match r.around with
    | [] => none
    | outer :: around => some (add ⟨.plain, outer, around⟩ r.group.pattern)
  | '|' => some { r with mode := .plain, group := r.group.next }
  | '*' => r.repeating? fun p lazy => .repeated lazy p
  | '+' => r.repeating? fun p lazy => .seq p (.repeated lazy p)
  | '?' => r.repeating? fun p lazy => if lazy then .or .empty p else .or p .empty
  | '\x7b' => none
  | '.' => some (r.add (.oneOf ⟨true, [('\n', '\n')]⟩))
  | '^' => some (r.add .start)
  | '$' => some (r.add .finish)
  | c => some (r.add (char c))

/-- The next character within a class, where it stands for itself or starts an escape; a class
within the class is refused. -/
def item? (r : Reader) (s : CharClass) (c : Char) : Option Reader :=
  if c == '[' then none
  else
    some { r with mode := .charClass (if c == '\\' then .escape else .single c) s }

/-- The next character within a class. -/
def inClass? (r : Reader) (s : CharClass) (c : Char) : ClassAt → Option Reader
  | .opened =>
    if c == '^' then some { r with mode := .charClass .first { s with others := true } }
    else r.item? s c
  | .first => r.item? s c
  | .plain => if c == ']' then some (r.add (.oneOf s)) else r.item? s c
  | .escape =>
    match namedRanges? c with
    | some ranges =>
      some { r with mode := .charClass .plain { s with ranges := ranges ++ s.ranges } }
    | none => (escaped? c).map fun c => { r with mode := .charClass (.single c) s }
  | .single d =>
    let s' : CharClass := { s with ranges := (d, d) :: s.ranges }
    if c == '-' then some { r with mode := .charClass (.range d) s }
    else if c == ']' then some (r.add (.oneOf s'))
    else r.item? s' c
  | .range d =>
    if c == ']' then
      some (r.add (.oneOf { s with ranges := (d, d) :: ('-', '-') :: s.ranges }))
    else if c == '[' || c == '\\' || c < d then none
    else some { r with mode := .charClass .plain { s with ranges := (d, c) :: s.ranges } }

/-- The next character. -/
def step? (r : Reader) (c : Char) : Option Reader :=
  match r.mode with
  | .plain => r.plain? c
  | .escape => (ofEscape? c).map r.add
  | .opened => if c == '?' then some { r with mode := .flags } else r.plain? c
  | .flags => if c == ':' then some { r with mode := .plain } else none
  | .repetition again =>
    if c == '?' then some (r.add (again true)) else (r.add (again false)).plain? c
  | .charClass place s => r.inClass? s c place

/-- The pattern, if the text may end here. -/
def finish? (r : Reader) : Option Pattern :=
  match r.around, r.mode with
  | [], .plain => some r.group.pattern
  | [], .repetition again => some (r.group.add (again false)).pattern
  | _, _ => none

end Reader

/-- Reads a pattern. -/
def ofChars? (cs : List Char) : Option Pattern :=
  (cs.foldlM Reader.step? ⟨.plain, .blank, []⟩).bind Reader.finish?

end Pattern

end Postal.Text
