/-!
# Places in a text, counted in bytes.

A character takes one to four bytes. A text can only be cut between its characters, so taking or
dropping bytes fails at a place within one.
-/

namespace Postal.Text

/-- How many bytes a text takes. -/
def byteSize : List Char → Nat
  | [] => 0
  | c :: cs => c.utf8Size + byteSize cs

/-- The text without its first bytes. -/
def dropBytes? : Nat → List Char → Option (List Char)
  | 0, cs => some cs
  | _ + 1, [] => none
  | n + 1, c :: cs => if c.utf8Size ≤ n + 1 then dropBytes? (n + 1 - c.utf8Size) cs else none

/-- The first bytes of a text. -/
def takeBytes? : Nat → List Char → Option (List Char)
  | 0, _ => some []
  | _ + 1, [] => none
  | n + 1, c :: cs =>
    if c.utf8Size ≤ n + 1 then (takeBytes? (n + 1 - c.utf8Size) cs).map (c :: ·) else none

/-- What stands between two places. -/
def between? (start stop : Nat) (cs : List Char) : Option (List Char) := do
  takeBytes? (stop - start) (← dropBytes? start cs)

end Postal.Text
