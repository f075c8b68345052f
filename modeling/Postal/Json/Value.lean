/-!
# Writing JSON.

A value that is to be written, and its two layouts: without any blanks, and with a line for every
member and item.
-/

namespace Postal.Json

/-- A value that is to be written. -/
inductive Value where
  | null
  | number (n : Nat)
  | string (s : String)
  | array (items : List Value)
  | object (members : List (String × Value))

/-- A digit of a code point in hexadecimal, from the sixteen's place on. -/
def hexPair (n : Nat) : List Char := [Nat.digitChar (n / 16), Nat.digitChar (n % 16)]

/-- A character within quotes. -/
def escape (c : Char) : List Char :=
  if c == '"' then ['\\', '"']
  else if c == '\\' then ['\\', '\\']
  else if c == '\x08' then ['\\', 'b']
  else if c == '\x0c' then ['\\', 'f']
  else if c == '\n' then ['\\', 'n']
  else if c == '\x0d' then ['\\', 'r']
  else if c == '\t' then ['\\', 't']
  else if c < ' ' then ['\\', 'u', '0', '0'] ++ hexPair c.toNat
  else [c]

/-- A string within quotes. -/
def quote (s : String) : List Char := '"' :: s.toList.flatMap escape ++ ['"']

namespace Value

mutual

/-- A value without blanks. -/
def render : Value → List Char
  | .null => ['n', 'u', 'l', 'l']
  | .number n => Nat.toDigits 10 n
  | .string s => quote s
  | .array items => '[' :: renderItems items ++ [']']
  | .object members => '\x7b' :: renderMembers members ++ ['\x7d']

/-- Items with commas between them. -/
def renderItems : List Value → List Char
  | [] => []
  | [v] => v.render
  | v :: vs => v.render ++ ',' :: renderItems vs

/-- Members with commas between them. -/
def renderMembers : List (String × Value) → List Char
  | [] => []
  | [(key, v)] => quote key ++ ':' :: v.render
  | (key, v) :: ms => quote key ++ ':' :: v.render ++ ',' :: renderMembers ms

end

/-- The text of a value without blanks. -/
def text (v : Value) : String := String.ofList v.render

/-- A new line, with two blanks for each level. -/
def newLine (level : Nat) : List Char := '\n' :: List.replicate (2 * level) ' '

mutual

/-- A value laid out in lines; `level` is how deep it stands. -/
def layOut (level : Nat) : Value → List Char
  | .array (v :: vs) =>
    '[' :: layOutItems (level + 1) (v :: vs) ++ newLine level ++ [']']
  | .object (m :: ms) =>
    '\x7b' :: layOutMembers (level + 1) (m :: ms) ++ newLine level ++ ['\x7d']
  | v => v.render

/-- Items on lines of their own. -/
def layOutItems (level : Nat) : List Value → List Char
  | [] => []
  | [v] => newLine level ++ layOut level v
  | v :: vs => newLine level ++ layOut level v ++ ',' :: layOutItems level vs

/-- Members on lines of their own. -/
def layOutMembers (level : Nat) : List (String × Value) → List Char
  | [] => []
  | [(key, v)] => newLine level ++ quote key ++ [':', ' '] ++ layOut level v
  | (key, v) :: ms =>
    newLine level ++ quote key ++ [':', ' '] ++ layOut level v ++ ',' :: layOutMembers level ms

end

/-- The text of a value in lines. -/
def pretty (v : Value) : String := String.ofList (layOut 0 v)

end Value

end Postal.Json
