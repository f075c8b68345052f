import Postal.Config.Environment
import Postal.Text.Alphanumeric

/-!
# Files that set variables.

A file holds one binding `KEY = VALUE` per line, blank lines and comments. A value may be quoted,
and then go on over several lines; it may refer to variables and to earlier bindings of the file.
The first line that is no binding stops the reading, and the bindings before it count. A variable
that is already set is left alone.
-/

namespace Postal.EnvFile

open Postal.Text (isSpace trimEnd isAlphanumeric)

/-! ## Lines. -/

/-- Where the end of a line finds its quotes. -/
inductive Scan where
  | plain
  /-- Behind a blank, where a comment may start. -/
  | blank
  | escape
  | weak
  | weakEscape
  | strong
  | strongEscape
  deriving DecidableEq, Repr

/-- What a character outside of quotes leads to. -/
def Scan.ofPlain (c : Char) : Scan :=
  if c == '\\' then .escape
  else if c == '"' then .weak
  else if c == '\'' then .strong
  else .plain

/-- The next character of a line. A blank behind a blank counts as an ordinary character. -/
def Scan.next (c : Char) : Scan → Scan
  | .blank => .ofPlain c
  | .plain => if isSpace c && c != '\n' && c != '\x0d' then .blank else .ofPlain c
  | .escape => .plain
  | .weak => if c == '\\' then .weakEscape else if c == '"' then .plain else .weak
  | .weakEscape => .weak
  | .strong => if c == '\\' then .strongEscape else if c == '\'' then .plain else .strong
  | .strongEscape => .strong

/-- What a line is found to be at its end: in a state, or cut by a comment behind what is before it.
-/
inductive LineEnd where
  | within (s : Scan)
  | comment (before : List Char)
  deriving DecidableEq, Repr

/-- The end of a line that has one more character at its front. -/
def LineEnd.behind (c : Char) : LineEnd → LineEnd
  | .within s => .within s
  | .comment before => .comment (c :: before)

/-- Goes through a line. -/
def scanLine : Scan → List Char → LineEnd
  | s, [] => .within s
  | s, c :: cs =>
    if s = .blank ∧ c = '#' then .comment [] else (scanLine (s.next c) cs).behind c

/-- A line without the end of line. -/
def chomp (cs : List Char) : List Char :=
  match cs.reverse with
  | '\n' :: '\x0d' :: rest => rest.reverse
  | '\n' :: rest => rest.reverse
  | _ => cs

/-- The lines of a file, each with the byte that ends it. -/
def splitLines (bs : List UInt8) : List (List UInt8) :=
  bs.foldr (fun b lines =>
    if b == 10 then [b] :: lines
    else
      match lines with
      | [] => [[b]]
      | line :: lines => (b :: line) :: lines) []

/-! ## Values. -/

/-- Where the reader of a value is; `weak` tells whether it is within double quotes. -/
inductive ValueAt where
  | bare
  | weak
  | strong
  | escape (weak : Bool)
  /-- Behind a blank: only a comment may follow. -/
  | ended
  /-- Behind a dollar sign, within the name of a variable; its characters in reverse. -/
  | name (weak : Bool) (seen : List Char)
  /-- Within a name in braces. -/
  | braced (weak : Bool) (seen : List Char)
  deriving DecidableEq, Repr

/-- Back from an escape or a name. -/
def ValueAt.back (weak : Bool) : ValueAt := if weak then .weak else .bare

/-- What a backslash and a character stand for. -/
def unescape? (c : Char) : Option Char :=
  if c == '\\' || c == '\'' || c == '"' || c == '$' || c == ' ' then some c
  else if c == 'n' then some '\n'
  else none

/-- The characters of a variable. -/
def expand (look : String → String) (seen : List Char) : List Char :=
  (look (String.ofList seen.reverse)).toList

/-- The characters of a value; `look` finds the values of variables. The character behind a name
without braces is taken as it is, whatever it is. -/
def value? (look : String → String) : ValueAt → List Char → Option (List Char)
  | .bare, [] => some []
  | .ended, [] => some []
  | .escape false, [] => some []
  | .name false seen, [] => some (expand look seen)
  | _, [] => none
  | .ended, c :: cs =>
    if c == ' ' || c == '\t' then value? look .ended cs
    else if c == '#' then some []
    else none
  | .escape weak, c :: cs => do
    let d ← unescape? c
    (value? look (.back weak) cs).map (d :: ·)
  | .strong, c :: cs =>
    if c == '\'' then value? look .bare cs else (value? look .strong cs).map (c :: ·)
  | .name weak seen, c :: cs =>
    if isAlphanumeric c then value? look (.name weak (c :: seen)) cs
    else if c == '\x7b' && seen.isEmpty then value? look (.braced weak []) cs
    else if c == '$' then (value? look (.name weak []) cs).map (expand look seen ++ ·)
    else (value? look (.back weak) cs).map ((expand look seen ++ [c]) ++ ·)
  | .braced weak seen, c :: cs =>
    if c == '\x7d' then (value? look (.back weak) cs).map (expand look seen ++ ·)
    else value? look (.braced weak (c :: seen)) cs
  | .weak, c :: cs =>
    if c == '$' then value? look (.name true []) cs
    else if c == '"' then value? look .bare cs
    else if c == '\\' then value? look (.escape true) cs
    else (value? look .weak cs).map (c :: ·)
  | .bare, c :: cs =>
    if c == '$' then value? look (.name false []) cs
    else if c == '\'' then value? look .strong cs
    else if c == '"' then value? look .weak cs
    else if c == '\\' then value? look (.escape false) cs
    else if c == ' ' || c == '\t' then value? look .ended cs
    else (value? look .bare cs).map (c :: ·)

/-! ## Bindings. -/

/-- Whether a key may start with a character. -/
def startsKey (c : Char) : Bool := c.isAlpha || c == '_'

/-- Whether a key may go on with a character. -/
def continuesKey (c : Char) : Bool := c.isAlphanum || c == '_' || c == '.'

/-- The key at the front of a text, and what follows it without the white space between. -/
def key? (cs : List Char) : Option (String × List Char) :=
  if (cs.head?).any startsKey then
    some (String.ofList (cs.takeWhile continuesKey), (cs.dropWhile continuesKey).dropWhile isSpace)
  else none

/-- What follows an equals sign. -/
def equals? : List Char → Option (List Char)
  | '=' :: cs => some cs
  | _ => none

/-- The key of a binding, and what follows the equals sign. The word `export` may stand before the
key, and may be a key itself. -/
def target? (cs : List Char) : Option (String × List Char) := do
  let (key, rest) ← key? cs
  match equals? rest with
  | some rest => some (key, rest)
  | none =>
    if key = "export" then do
      let (key, rest) ← key? rest
      some (key, ← equals? rest)
    else none

/-- Whether nothing but a comment is left. -/
def isVacant (cs : List Char) : Bool := cs.isEmpty || cs.head? == some '#'

/-- What a line is: nothing, or a binding. -/
inductive Line where
  | vacant
  | binding (key value : String)
  deriving DecidableEq, Repr

/-- Reads a line. -/
def Line.ofChars? (look : String → String) (cs : List Char) : Option Line :=
  let cs := (trimEnd cs).dropWhile isSpace
  if isVacant cs then some .vacant
  else do
    let (key, rest) ← target? cs
    let rest := rest.dropWhile isSpace
    if isVacant rest then some (.binding key "")
    else some (.binding key (String.ofList (← value? look .bare rest)))

/-! ## Loading. -/

/-- What is loaded so far: the environment, the bindings of the file, the latest first, and the
characters of a line that goes on with its quotes. -/
structure Loading where
  env : Environment
  bindings : List (String × String)
  pending : List Char
  scan : Scan

/-- The value of a variable: from the environment, or else from the file. -/
def Loading.look (l : Loading) (name : String) : String :=
  ((l.env.text? name).or (l.bindings.lookup name)).getD ""

/-- What becomes of the loading with a line. -/
inductive Progress where
  | goesOn (l : Loading)
  | stops
  /-- A variable cannot hold the value. -/
  | crashes

/-- A whole line counts. Its binding is remembered, and its variable is set unless it is set to text
already. -/
def Loading.line (l : Loading) (cs : List Char) : Progress :=
  match Line.ofChars? l.look cs with
  | none => .stops
  | some .vacant => .goesOn { l with pending := [], scan := .plain }
  | some (.binding key value) =>
    if (l.env.text? key).isSome then
      .goesOn ⟨l.env, (key, value) :: l.bindings, [], .plain⟩
    else if value.toList.contains '\x00' then .crashes
    else .goesOn ⟨l.env.set key (.text value), (key, value) :: l.bindings, [], .plain⟩

/-- The next line of the file. -/
def Loading.feed (l : Loading) (bs : List UInt8) : Progress :=
  match Text.ofUtf8? bs with
  | none => .stops
  | some cs =>
    let all := l.pending ++ cs
    if (all.dropWhile isSpace).head? = some '#' then
      .goesOn { l with pending := [], scan := .plain }
    else
      match scanLine l.scan cs with
      | .comment before => l.line (l.pending ++ before)
      | .within .plain => l.line (chomp all)
      | .within scan => .goesOn { l with pending := all, scan }

/-- The environment after the lines of a file; none if loading it crashes. -/
def Loading.run? (l : Loading) : List (List UInt8) → Option (Loading)
  | [] => some l
  | bs :: lines =>
    match l.feed bs with
    | .goesOn l => l.run? lines
    | .stops => some l
    | .crashes => none

/-- A file without the mark of its encoding. -/
def withoutMark : List UInt8 → List UInt8
  | 0xef :: 0xbb :: 0xbf :: bs => bs
  | bs => bs

/-- The environment after a file is loaded; none if that crashes. -/
def load? (env : Environment) (file : List UInt8) : Option Environment :=
  (Loading.run? ⟨env, [], [], .plain⟩ (splitLines (withoutMark file))).map (·.env)

end Postal.EnvFile
