import Postal.Json.Node

/-!
# Reading a JSON text.

The reader is a fold over the characters. Its state is what it is in the middle of, and the
containers around that; each character moves it on. A value that is complete is delivered to the
container around it. A value that is broken ends the reading: the containers around it are closed as
they are.
-/

namespace Postal.Json

/-- The blanks between the parts of a text. -/
def isBlank (c : Char) : Bool := c == ' ' || c == '\n' || c == '\t' || c == '\x0d'

/-- A container around the current value, with what it holds so far, the last first. -/
inductive Frame where
  | item (done : List Node)
  | member (done : List (Quoted × Node)) (key : Quoted)

/-- What a string belongs to: a value, or a key with the members before it. -/
inductive Owner where
  | value
  | key (done : List (Quoted × Node))

/-- Where the reader is within a string. -/
inductive StringAt where
  | plain
  | escape
  /-- Behind a backslash and `u`: the characters so far, the last first. -/
  | hex (seen : List Char)

/-- Where the reader is within a number. -/
inductive NumberAt where
  | minus
  | zero
  | digits
  | point
  | fraction
  | mark
  | sign
  | exponent

/-- A number so far, its digits in reverse. -/
structure NumberSoFar where
  position : NumberAt
  negative : Bool
  digits : List Char
  fraction : Option (List Char)
  exponent : Option (Bool × List Char)

/-- What the reader is in the middle of. -/
inductive Mode where
  | value
  | firstItem
  | afterItem (done : List Node)
  | nextItem (done : List Node)
  | firstKey
  | afterMember (done : List (Quoted × Node))
  | nextKey (done : List (Quoted × Node))
  | colon (done : List (Quoted × Node)) (key : Quoted)
  | word (w : Word) (rest : List Char)
  | number (n : NumberSoFar)
  | string (owner : Owner) (position : StringAt) (pieces : List Piece)

/-- The reader: in the middle of something with the containers around it, or done. -/
inductive State where
  | reading (mode : Mode) (stack : List Frame)
  | finished (root : Node) (trailing : Bool)

namespace NumberSoFar

/-- The number as it is written, given how it ends. -/
def numeral (n : NumberSoFar) (ending : NumberEnd) : Numeral where
  negative := n.negative
  digits := n.digits.reverse
  fraction := n.fraction.map List.reverse
  exponent := n.exponent.map fun (negative, digits) => (negative, digits.reverse)
  ending := ending

/-- Whether the number may end here. -/
def mayEnd (n : NumberSoFar) : Bool :=
  match n.position with
  | .zero | .digits | .fraction | .exponent => true
  | _ => false

/-- A digit of the exponent. -/
def pushExponent (n : NumberSoFar) (c : Char) : NumberSoFar :=
  { n with
    position := .exponent
    exponent := n.exponent.map fun (negative, digits) => (negative, c :: digits) }

/-- A digit behind the point. -/
def pushFraction (n : NumberSoFar) (c : Char) : NumberSoFar :=
  { n with position := .fraction, fraction := n.fraction.map (c :: ·) }

/-- The number goes on with a character, if it can. -/
def push? (n : NumberSoFar) (c : Char) : Option NumberSoFar :=
  match n.position with
  | .minus =>
    if c.isDigit then some { n with position := if c == '0' then .zero else .digits, digits := [c] }
    else none
  | .zero | .digits =>
    if c.isDigit then
      match n.position with
      | .digits => some { n with digits := c :: n.digits }
      | _ => none
    else if c == '.' then some { n with position := .point, fraction := some [] }
    else if c == 'e' || c == 'E' then
      some { n with position := .mark, exponent := some (false, []) }
    else none
  | .point => if c.isDigit then some (n.pushFraction c) else none
  | .fraction =>
    if c.isDigit then some (n.pushFraction c)
    else if c == 'e' || c == 'E' then
      some { n with position := .mark, exponent := some (false, []) }
    else none
  | .mark =>
    if c.isDigit then some (n.pushExponent c)
    else if c == '+' then some { n with position := .sign }
    else if c == '-' then some { n with position := .sign, exponent := some (true, []) }
    else none
  | .sign | .exponent => if c.isDigit then some (n.pushExponent c) else none

/-- A digit behind a leading zero breaks the number. -/
def brokenBy (n : NumberSoFar) (c : Char) : Bool :=
  !n.mayEnd || (match n.position with | .zero => c.isDigit | _ => false)

end NumberSoFar

/-- The value of a hexadecimal digit. -/
def hexDigit? (c : Char) : Option Nat :=
  if c.isDigit then some (c.toNat - '0'.toNat)
  else if 'a' ≤ c && c ≤ 'f' then some (c.toNat - 'a'.toNat + 10)
  else if 'A' ≤ c && c ≤ 'F' then some (c.toNat - 'A'.toNat + 10)
  else none

/-- The value of hexadecimal digits. -/
def hexValue? (cs : List Char) : Option Nat :=
  cs.foldlM (fun value c => (hexDigit? c).map (value * 16 + ·)) 0

/-- What a letter behind a backslash stands for. -/
def unescape? : Char → Option Char
  | '"' => some '"'
  | '\\' => some '\\'
  | '/' => some '/'
  | 'b' => some '\x08'
  | 'f' => some '\x0c'
  | 'n' => some '\n'
  | 'r' => some '\x0d'
  | 't' => some '\t'
  | _ => none

namespace State

/-- A text that has not been read yet. -/
def start : State := .reading .value []

/-- The value of the text when its innermost value is broken: the containers around it are closed as
they are. -/
def enclose (n : Node) : List Frame → Node
  | [] => n
  | .item done :: stack => enclose (.array (done.reverse ++ [n]) .cut) stack
  | .member done key :: stack => enclose (.object (done.reverse ++ [(key, n)]) .cut) stack

/-- A broken value ends the reading. -/
def abandon (n : Node) (stack : List Frame) : State := .finished (enclose n stack) false

/-- A complete value goes into the container around it. -/
def deliver (n : Node) : List Frame → State
  | [] => .finished n false
  | .item done :: stack => .reading (.afterItem (n :: done)) stack
  | .member done key :: stack => .reading (.afterMember ((key, n) :: done)) stack

/-- A complete string goes where it belongs. -/
def deliverString (pieces : List Piece) (stack : List Frame) : Owner → State
  | .value => deliver (.string ⟨pieces.reverse, .closed⟩) stack
  | .key done => .reading (.colon done ⟨pieces.reverse, .closed⟩) stack

/-- The value that a broken string makes of where it belongs. -/
def brokenString (pieces : List Piece) (ending : StringEnd) : Owner → Node
  | .value => .string ⟨pieces.reverse, ending⟩
  | .key done => .object (done.reverse ++ [(⟨pieces.reverse, ending⟩, .absent false)]) .cut

/-- A broken string ends the reading. -/
def abandonString (pieces : List Piece) (ending : StringEnd) (stack : List Frame)
    (owner : Owner) : State :=
  abandon (brokenString pieces ending owner) stack

/-- A value starts with a character, or cannot. -/
def openValue (c : Char) (stack : List Frame) : State :=
  if c == '"' then .reading (.string .value .plain []) stack
  else if c == '[' then .reading .firstItem stack
  else if c == '{' then .reading .firstKey stack
  else if c == '-' then .reading (.number ⟨.minus, true, [], none, none⟩) stack
  else if c.isDigit then
    .reading (.number ⟨if c == '0' then .zero else .digits, false, [c], none, none⟩) stack
  else if c == 'n' then .reading (.word .null ['u', 'l', 'l']) stack
  else if c == 't' then .reading (.word .truth ['r', 'u', 'e']) stack
  else if c == 'f' then .reading (.word .falsehood ['a', 'l', 's', 'e']) stack
  else abandon (.absent false) stack

/-- The next character within a string. Four bytes have to follow a backslash and `u`, whatever they
are. -/
def feedString (c : Char) (stack : List Frame) (owner : Owner) (pieces : List Piece) :
    StringAt → State
  | .plain =>
    if c == '"' then deliverString pieces stack owner
    else if c == '\\' then .reading (.string owner .escape pieces) stack
    else if c < ' ' then abandonString pieces .control stack owner
    else .reading (.string owner .plain (.plain c :: pieces)) stack
  | .escape =>
    if c == 'u' then .reading (.string owner (.hex []) pieces) stack
    else
      match unescape? c with
      | some d => .reading (.string owner .plain (.escaped d :: pieces)) stack
      | none => abandonString pieces .badEscape stack owner
  | .hex seen =>
    let seen := c :: seen
    if (String.ofList seen).utf8ByteSize < 4 then .reading (.string owner (.hex seen) pieces) stack
    else
      match hexValue? seen.reverse with
      | some value => .reading (.string owner .plain (.unit value :: pieces)) stack
      | none => abandonString pieces .badHex stack owner

/-- The next character, where it is not within a number. -/
def feedOther (c : Char) (stack : List Frame) : Mode → State
  | .value => if isBlank c then .reading .value stack else openValue c stack
  | .firstItem =>
    if isBlank c then .reading .firstItem stack
    else if c == ']' then deliver (.array [] .closed) stack
    else openValue c (.item [] :: stack)
  | .afterItem done =>
    if isBlank c then .reading (.afterItem done) stack
    else if c == ',' then .reading (.nextItem done) stack
    else if c == ']' then deliver (.array done.reverse .closed) stack
    else abandon (.array done.reverse .junk) stack
  | .nextItem done =>
    if isBlank c then .reading (.nextItem done) stack
    else if c == ']' then abandon (.array done.reverse .trailingComma) stack
    else openValue c (.item done :: stack)
  | .firstKey =>
    if isBlank c then .reading .firstKey stack
    else if c == '}' then deliver (.object [] .closed) stack
    else if c == '"' then .reading (.string (.key []) .plain []) stack
    else abandon .keyless stack
  | .afterMember done =>
    if isBlank c then .reading (.afterMember done) stack
    else if c == ',' then .reading (.nextKey done) stack
    else if c == '}' then deliver (.object done.reverse .closed) stack
    else abandon (.object done.reverse .junk) stack
  | .nextKey done =>
    if isBlank c then .reading (.nextKey done) stack
    else if c == '}' then abandon (.object done.reverse .trailingComma) stack
    else if c == '"' then .reading (.string (.key done) .plain []) stack
    else abandon (.object done.reverse .badKey) stack
  | .colon done key =>
    if isBlank c then .reading (.colon done key) stack
    else if c == ':' then .reading .value (.member done key :: stack)
    else abandon (.noColon false) (.member done key :: stack)
  | .word w rest =>
    match rest with
    | [] => abandon (.brokenWord false) stack
    | [d] => if c == d then deliver (.word w) stack else abandon (.brokenWord false) stack
    | d :: rest =>
      if c == d then .reading (.word w rest) stack else abandon (.brokenWord false) stack
  | .string owner position pieces => feedString c stack owner pieces position
  | .number n => .reading (.number n) stack

/-- The next character outside of numbers; behind the value of the text only blanks are in their
place. -/
def feedDelivered (c : Char) : State → State
  | .reading mode stack => feedOther c stack mode
  | .finished root trailing => .finished root (trailing || !isBlank c)

/-- The next character. A number ends only with the character behind it, which is then read as what
follows. -/
def feed (s : State) (c : Char) : State :=
  match s with
  | .reading (.number n) stack =>
    match n.push? c with
    | some n => .reading (.number n) stack
    | none =>
      if n.brokenBy c then abandon (.number (n.numeral .junk)) stack
      else feedDelivered c (deliver (.number (n.numeral .complete)) stack)
  | s => feedDelivered c s

/-- A number ends with the text. -/
def endNumber : State → State
  | .reading (.number n) stack =>
    if n.mayEnd then deliver (.number (n.numeral .complete)) stack else .reading (.number n) stack
  | s => s

/-- What the reader is in the middle of when the text ends, as a broken value and the containers
around it. -/
def breakOff (stack : List Frame) : Mode → Node
  | .value => enclose (.absent true) stack
  | .firstItem => enclose (.array [] .eof) stack
  | .afterItem done => enclose (.array done.reverse .eof) stack
  | .nextItem done => enclose (.absent true) (.item done :: stack)
  | .firstKey => enclose (.object [] .eof) stack
  | .afterMember done => enclose (.object done.reverse .eof) stack
  | .nextKey done => enclose (.object done.reverse .commaEof) stack
  | .colon done key => enclose (.noColon true) (.member done key :: stack)
  | .word _ _ => enclose (.brokenWord true) stack
  | .number n => enclose (.number (n.numeral .eof)) stack
  | .string owner .plain pieces => enclose (brokenString pieces .eof owner) stack
  | .string owner .escape pieces => enclose (brokenString pieces .escapeEof owner) stack
  | .string owner (.hex _) pieces => enclose (brokenString pieces .hexEof owner) stack

/-- The text ends: whatever the reader is in the middle of is all there is. -/
def finish (s : State) : Document :=
  match s.endNumber with
  | .finished root trailing => ⟨root, trailing⟩
  | .reading mode stack => ⟨breakOff stack mode, false⟩

end State

/-- Reads a text. -/
def Document.ofChars (cs : List Char) : Document := (cs.foldl State.feed .start).finish

end Postal.Json
