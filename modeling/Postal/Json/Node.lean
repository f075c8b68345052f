/-!
# The tree of a JSON text.

Reading a text into a tree never fails: a text that breaks off or goes wrong gives a tree with a
broken leaf, behind which nothing follows. What such a leaf means depends on who meets it, so the
tree keeps what was found, not the words for it. Strings and numbers are kept as they are written.
-/

namespace Postal.Json

/-- One piece of a string between its quotes. -/
inductive Piece where
  /-- A character as it is. -/
  | plain (c : Char)
  /-- A backslash and a letter, kept as what they stand for. -/
  | escaped (c : Char)
  /-- A backslash, `u` and four hexadecimal digits. -/
  | unit (value : Nat)
  deriving DecidableEq, Repr

/-- How a string ends. -/
inductive StringEnd where
  | closed
  /-- The text ends inside the string, or right behind a backslash. -/
  | eof
  /-- A control character stands in the string. -/
  | control
  /-- The text ends right behind a backslash. -/
  | escapeEof
  /-- A backslash is followed by something it does not escape. -/
  | badEscape
  /-- The text ends before the four digits. -/
  | hexEof
  /-- What should be four hexadecimal digits is not. -/
  | badHex
  deriving DecidableEq, Repr

/-- A string as it is written. -/
structure Quoted where
  pieces : List Piece
  ending : StringEnd
  deriving DecidableEq, Repr

/-- How a number ends: properly, or before a digit that has to come, because of the end of the text
or of another character. -/
inductive NumberEnd where
  | complete
  | eof
  | junk
  deriving DecidableEq, Repr

/-- A number as it is written: sign, whole part, fraction behind the point, and the exponent with
whether it is negative. -/
structure Numeral where
  negative : Bool
  digits : List Char
  fraction : Option (List Char)
  exponent : Option (Bool × List Char)
  ending : NumberEnd
  deriving DecidableEq, Repr

/-- The three words of JSON. -/
inductive Word where
  | null
  | truth
  | falsehood
  deriving DecidableEq, Repr

/-- How an array ends. -/
inductive ArrayEnd where
  | closed
  /-- The text ends where a comma or a bracket should come. -/
  | eof
  /-- Something else stands where a comma or a bracket should come. -/
  | junk
  /-- A comma is followed by the closing bracket. -/
  | trailingComma
  /-- The last item is broken. -/
  | cut
  deriving DecidableEq, Repr

/-- How an object ends. -/
inductive ObjectEnd where
  | closed
  /-- The text ends where a comma, a brace or the first key should come. -/
  | eof
  /-- Something else stands where a comma or a brace should come. -/
  | junk
  /-- A comma is followed by the closing brace. -/
  | trailingComma
  /-- The text ends behind a comma. -/
  | commaEof
  /-- A comma is followed by something that is not a key. -/
  | badKey
  /-- The last member is broken. -/
  | cut
  deriving DecidableEq, Repr

/-- What stands in a text where a value should. -/
inductive Node where
  /-- Nothing that a value starts with; `eof` tells whether the text ends there. -/
  | absent (eof : Bool)
  /-- A key without its colon; `eof` tells whether the text ends there. -/
  | noColon (eof : Bool)
  | word (w : Word)
  /-- A word that starts like one of the three and goes on otherwise, or breaks off. -/
  | brokenWord (eof : Bool)
  | number (n : Numeral)
  | string (q : Quoted)
  | array (items : List Node) (ending : ArrayEnd)
  | object (members : List (Quoted × Node)) (ending : ObjectEnd)
  /-- An opening brace, and behind it something else than a key. -/
  | keyless

/-- A whole text: its value, and whether anything but blanks follows it. -/
structure Document where
  root : Node
  trailing : Bool

end Postal.Json
