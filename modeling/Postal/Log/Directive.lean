import Postal.Log.Line
import Postal.Text.Alphanumeric
import Postal.Text.Blank
import Postal.Text.Bytes
import Postal.Text.Pattern
import Postal.Text.Split

/-!
# The rules of a filter.

A rule is written `target[span{field=value}]=level`, and any part may be left out. Up to its
level it lets lines through: those of a target, those that have a field, or those within a span.
-/

namespace Postal.Log

/-! ## Fields. -/

/-- What a rule asks for: a field, or also what its value is. -/
structure FieldRule where
  name : List Char
  value : Option (List Char)
  deriving DecidableEq, Repr

namespace FieldRule

/-- The pattern of numbers and truth values. -/
def numeral? : Option Text.Pattern :=
  Text.Pattern.ofChars?
    "^(true|false|[+-]?([0-9]+[.]?[0-9]*|[.][0-9]+)([eE][+-]?[0-9]+)?)$".toList

/-- Whether a value is asked for as a number or a truth value; no text is one. -/
def isNumeral (value : List Char) : Bool := numeral?.any (·.fitsEnd value)

/-- Reads what a rule asks for. Any value that is no number has to be a pattern; what follows a
second equals sign does not matter. -/
def ofChars? (cs : List Char) : Option FieldRule :=
  match Text.split (· == '=') cs with
  | name :: value :: _ =>
    if isNumeral value || (Text.Pattern.ofChars? value).isSome then some ⟨name, some value⟩
    else none
  | _ => some ⟨cs, none⟩

/-- Whether a text is the value that is asked for. -/
def isMetBy (f : FieldRule) (text : String) : Bool :=
  f.value.all fun value =>
    !isNumeral value && (Text.Pattern.ofChars? value).any (·.fitsEnd text.toList)

end FieldRule

/-! ## Rules. -/

/-- A rule. -/
structure Directive where
  target : Option (List Char)
  span : Option (List Char)
  field : Option FieldRule
  level : Level
  deriving DecidableEq, Repr

namespace Directive

/-- A rule for all lines. -/
def ofLevel (level : Level) : Directive := ⟨none, none, none, level⟩

/-- Whether a rule may start with a character, other than a bracket. -/
def starts (c : Char) : Bool := c == '-' || c == ':' || c == '_' || Text.isAlphanumeric c

/-- The level behind an equals sign; without one everything is let through. -/
def level? : List Char → Option Level
  | [] => some .trace
  | cs => Level.ofChars? cs

/-- The level behind a bracket that closes at a place, where `rest` follows. -/
def levelAfter? (cs rest : List Char) (place : Nat) : Option Level :=
  match rest with
  | [] => some .trace
  | '=' :: _ => do level? (← Text.dropBytes? (place + 1) cs)
  | _ => none

/-- The rule with a bracket that opens before a place, where `inside` follows. -/
def bracketed? (cs : List Char) (target : Option (List Char)) (inside : List Char) (place : Nat) :
    Option Directive := do
  let name := inside.takeWhile fun c => c != ']' && c != '\x7b'
  let stop := place + Text.byteSize name
  let span ← Text.between? place stop cs
  match inside.drop name.length with
  | [] => none
  | ']' :: rest => some ⟨target, some span, none, ← levelAfter? cs rest (stop + 1)⟩
  | _ :: braced =>
    let body := braced.takeWhile (· != '\x7d')
    let close := stop + 1 + Text.byteSize body
    let field := Text.trim (← Text.between? (stop + 1) close cs)
    match braced.drop body.length with
    | '\x7d' :: ']' :: rest =>
      if field.isEmpty then none
      else
        let span := if (Text.trim span).isEmpty then none else some span
        some ⟨target, span, ← FieldRule.ofChars? field, ← levelAfter? cs rest (close + 2)⟩
    | _ => none

/-- Reads a rule. White space around it is passed over to find its parts, but each part is then
taken from the same place of the text that still has the white space. -/
def ofChars? (cs : List Char) : Option Directive := do
  let bare := Text.trim cs
  let front := bare.takeWhile fun c => c != '=' && c != '['
  let stop := Text.byteSize front
  match bare.drop front.length with
  | [] =>
    if front.head?.any starts then
      match Level.ofChars? cs with
      | some level => some (ofLevel level)
      | none => some ⟨some cs, none, none, .trace⟩
    else none
  | '[' :: inside =>
    if front.isEmpty then bracketed? cs none inside 1
    else if front.head?.any starts then
      bracketed? cs (some (← Text.takeBytes? stop cs)) inside (stop + 1)
    else none
  | _ =>
    if front.head?.any starts then
      let target ← Text.takeBytes? stop cs
      some ⟨some target, none, none, ← level? (← Text.dropBytes? (stop + 1) cs)⟩
    else none

/-- Whether a rule can be decided by a line alone. -/
def isStatic (d : Directive) : Bool := d.span.isNone && d.field.all (·.value.isNone)

/-- Whether a rule is also about spans. -/
def isDynamic (d : Directive) : Bool := d.span.isSome || d.field.isSome

/-- Whether two rules ask for the same. -/
def asksSame (d e : Directive) : Bool :=
  d.target == e.target && d.span == e.span && d.field == e.field

/-- Whether a rule is for a target. -/
def isForTarget (d : Directive) (target : String) : Bool :=
  d.target.all (·.isPrefixOf target.toList)

/-- Whether a rule is for a line. -/
def isForLine (d : Directive) (l : Line) : Bool :=
  d.isStatic && d.isForTarget l.target &&
    d.field.all fun f => l.fieldNames.any fun name => name.toList == f.name

/-- Whether a rule is for what happens within a span. -/
def isForSpan (d : Directive) (s : Span) : Bool :=
  d.isDynamic && d.isForTarget s.target && d.span.all (· == s.name.toList) &&
    d.field.all fun f => s.fields.any fun (name, value) => name.toList == f.name && f.isMetBy value

/-- Whether a name comes before another one, or is the same. -/
def comesFirst : List Char → List Char → Bool
  | [], _ => true
  | _ :: _, [] => false
  | c :: cs, d :: ds => c.toNat < d.toNat || (c == d && comesFirst cs ds)

/-- Whether another rule for the same line says no less about it: by a longer target, else by a
field, else by a later name of the field. -/
def yieldsTo (d e : Directive) : Bool :=
  let size (d : Directive) := (d.target.map List.length).getD 0
  size d < size e || (size d == size e &&
    match d.field, e.field with
    | none, _ => true
    | some _, none => false
    | some f, some g => comesFirst f.name g.name)

end Directive

end Postal.Log
