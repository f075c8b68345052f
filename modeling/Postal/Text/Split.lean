/-!
# Parts between separators.
-/

namespace Postal.Text

/-- The parts of a list between its separators, one more than there are separators. -/
def split {A : Type} (separates : A → Bool) : List A → List (List A)
  | [] => [[]]
  | a :: rest =>
    match split separates rest with
    | [] => [[]]
    | part :: parts => if separates a then [] :: part :: parts else (a :: part) :: parts

theorem length_split {A : Type} (separates : A → Bool) (as : List A) :
    (split separates as).length = as.countP separates + 1 := by
  induction as with
  | nil => rfl
  | cons a rest ih =>
    simp only [split]
    split
    · next h => simp [h] at ih
    · next h =>
      rw [h] at ih
      by_cases ha : separates a <;> simp_all

/-- Without a separator there is a single part. -/
theorem split_of_none {A : Type} {separates : A → Bool} {as : List A}
    (has : ∀ a ∈ as, separates a = false) :
    split separates as = [as] := by
  induction as with
  | nil => rfl
  | cons a as ih =>
    obtain ⟨ha, has⟩ := List.forall_mem_cons.1 has
    simp [split, ih has, ha]

/-- A separator keeps the parts before it and those after it apart. -/
theorem split_append {A : Type} {separates : A → Bool} (as : List A) {a : A}
    (ha : separates a = true) (bs : List A) :
    split separates (as ++ a :: bs) = split separates as ++ split separates bs := by
  have hsome (cs : List A) : ∃ part parts, split separates cs = part :: parts :=
    List.exists_cons_of_length_pos (by rw [length_split]; omega)
  induction as with
  | nil =>
    obtain ⟨part, parts, hbs⟩ := hsome bs
    simp [split, hbs, ha]
  | cons b as ih =>
    obtain ⟨part, parts, has⟩ := hsome as
    rw [List.cons_append, split, ih, split, has]
    by_cases hb : separates b = true
    · simp [hb]
    · simp [hb]

end Postal.Text
