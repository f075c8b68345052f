import Postal.Text.GraphemeExtend
import Postal.Text.Unprintable

/-!
# Quoting text so that every character can be seen.

Inside double quotes a character stands for itself unless it would end the quotes, start an escape,
or not be seen on its own; then it is escaped, most of them by their code point.
-/

namespace Postal.Text

/-- Whether a code point is in one of the ranges. -/
def inRanges (ranges : List (Nat × Nat)) (n : Nat) : Bool :=
  ranges.any fun (first, last) => first ≤ n && n ≤ last

/-- Whether a character is seen on its own: printable, and not attached to the one before it. The
characters from space to tilde are, so the tables are asked only about the others. -/
def isVisible (c : Char) : Bool :=
  (' ' ≤ c && c ≤ '~') || !(inRanges graphemeExtend c.toNat || inRanges unprintable c.toNat)

/-- The escape of a character by its code point. -/
def codePoint (c : Char) : List Char :=
  ['\\', 'u', '\x7b'] ++ Nat.toDigits 16 c.toNat ++ ['\x7d']

/-- A character between double quotes. -/
def quotedChar (c : Char) : List Char :=
  if c == '\x00' then ['\\', '0']
  else if c == '\t' then ['\\', 't']
  else if c == '\n' then ['\\', 'n']
  else if c == '\x0d' then ['\\', 'r']
  else if c == '"' || c == '\\' then ['\\', c]
  else if isVisible c then [c]
  else codePoint c

/-- A text in double quotes. -/
def quoted (s : String) : String :=
  String.ofList ('"' :: s.toList.flatMap quotedChar ++ ['"'])

end Postal.Text
