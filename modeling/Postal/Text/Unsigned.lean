import Postal.Bounds

/-!
# Whole numbers as text.

One plus sign may stand before the digits, and any number of zeros among them. Of several things
that are wrong the first one in the order of the text counts.
-/

namespace Postal.Text

/-- Why a text is no number of one word. -/
inductive NotANumber where
  | empty
  | badDigit
  | tooLarge
  deriving DecidableEq, Repr

/-- The words for it. -/
def NotANumber.message : NotANumber → String
  | .empty => "cannot parse integer from empty string"
  | .badDigit => "invalid digit found in string"
  | .tooLarge => "number too large to fit in target type"

/-- Goes through the digits behind a value. -/
def unsignedFrom (value : Nat) : List Char → Except NotANumber Nat
  | [] => .ok value
  | c :: cs =>
    if c.isDigit then
      let next := value * 10 + (c.toNat - '0'.toNat)
      if next ≤ wordMax then unsignedFrom next cs else .error .tooLarge
    else .error .badDigit

/-- The number of one word that a text stands for. -/
def unsigned : List Char → Except NotANumber Nat
  | [] => .error .empty
  | ['+'] => .error .badDigit
  | '+' :: cs => unsignedFrom 0 cs
  | cs => unsignedFrom 0 cs

end Postal.Text
