/-!
# The numbers that the office keeps.

Every number of the model is a `Nat`. Ids, counts and lengths of time that come from outside are
words of 64 binary digits, points in time are stamps of 128; they are checked where they are read,
so that the rules themselves never wrap.
-/

namespace Postal

/-- The largest count, id or minute length: 64 binary digits. -/
def wordMax : Nat := Nat.pow 2 64 - 1

theorem le_wordMax_iff {n : Nat} : n ≤ wordMax ↔ n < Nat.pow 2 64 := by
  have hpos : 0 < Nat.pow 2 64 := Nat.pow_pos (by omega)
  rw [wordMax]
  omega

/-- The largest point in time: 128 binary digits. -/
def stampMax : Nat := Nat.pow 2 128 - 1

/-- Some numbers taken together. -/
def total (ns : List Nat) : Nat := ns.foldr (· + ·) 0

end Postal
