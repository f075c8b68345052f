import Mathlib.Data.List.Basic
import Mathlib.Tactic.Common
import Postal.Bounds

/-!
# Tallies: weighing a list member by member.

The invariants of the office count people: who waits with a ticket, who is inside, who scans. Each
such count is a **tally**, the sum of a weight over everybody. A step replaces one member of the
list, so all that is ever needed is how a tally reacts to a replacement (`tally_set`) and to one
more member (`tally_append`), and what a positive tally says about a single member
(`exists_of_tally_pos`).
-/

namespace Postal

/-- **`tally f l`** — what the list weighs when each member weighs what `f` says. -/
def tally {A : Type} (f : A → Nat) (l : List A) : Nat := total (l.map f)

variable {A : Type} {f g : A → Nat} {l : List A}

@[simp] theorem tally_nil (f : A → Nat) : tally f [] = 0 := rfl

@[simp] theorem tally_cons (f : A → Nat) (a : A) (l : List A) :
    tally f (a :: l) = f a + tally f l := rfl

theorem tally_append (f : A → Nat) (l m : List A) : tally f (l ++ m) = tally f l + tally f m := by
  induction l with
  | nil => simp
  | cons a l ih =>
      rw [List.cons_append, tally_cons, tally_cons, ih]
      omega

/-- One more member adds its own weight. -/
theorem tally_concat (f : A → Nat) (l : List A) (a : A) : tally f (l ++ [a]) = tally f l + f a := by
  rw [tally_append, tally_cons, tally_nil, Nat.add_zero]

/-- What the members show weighs what it weighs of them. -/
theorem tally_map {B : Type} (f : B → Nat) (g : A → B) (l : List A) :
    tally f (l.map g) = tally (fun a => f (g a)) l := by
  induction l with
  | nil => rfl
  | cons a l ih => rw [List.map_cons, tally_cons, tally_cons, ih]

/-! ## Replacing a member -/

/-- A list weighs what one member weighs and what all the others weigh. -/
theorem tally_eq_add {i : Nat} {a : A} (h : l[i]? = some a) :
    tally f l = tally f (l.eraseIdx i) + f a := by
  induction l generalizing i with
  | nil => simp at h
  | cons c l ih =>
      cases i with
      | zero =>
          rw [List.getElem?_cons_zero, Option.some.injEq] at h
          subst h
          rw [tally_cons, List.eraseIdx_cons_zero]
          omega
      | succ i =>
          rw [List.getElem?_cons_succ] at h
          rw [tally_cons, List.eraseIdx_cons_succ, tally_cons, ih h]
          omega

/-- After a replacement the others weigh what they did. -/
theorem tally_set_eq_add {i : Nat} {a : A} (h : l[i]? = some a) (b : A) :
    tally f (l.set i b) = tally f (l.eraseIdx i) + f b := by
  have hi := (List.getElem?_eq_some_iff.1 h).1
  rw [tally_eq_add (i := i) (a := b) (by rw [List.getElem?_set_self hi]), List.eraseIdx_set_eq]

/-- **Replacement.** The old weight leaves and the new weight comes. -/
theorem tally_set {i : Nat} {a : A} (h : l[i]? = some a) (b : A) :
    tally f (l.set i b) + f a = tally f l + f b := by
  rw [tally_set_eq_add h, tally_eq_add h]
  omega

/-- A replacement by somebody of the same weight changes nothing. -/
theorem tally_set_of_eq {i : Nat} {a b : A} (h : l[i]? = some a) (hw : f b = f a) :
    tally f (l.set i b) = tally f l := by
  rw [tally_set_eq_add h, tally_eq_add h, hw]

/-- **Two replacements** at different places. -/
theorem tally_set_set {i j : Nat} {a b : A} (hi : l[i]? = some a) (hj : l[j]? = some b)
    (hij : i ≠ j) (a' b' : A) :
    tally f ((l.set i a').set j b') + f a + f b = tally f l + f a' + f b' := by
  have hj' : (l.set i a')[j]? = some b := by rw [List.getElem?_set_ne hij]; exact hj
  have hfirst := tally_set (f := f) hi a'
  have hsecond := tally_set (f := f) hj' b'
  omega

/-- A replacement by somebody who shows the same changes nothing of what everybody shows. -/
theorem map_set_of_eq {B : Type} {g : A → B} {i : Nat} {a b : A} (h : l[i]? = some a)
    (hg : g b = g a) : (l.set i b).map g = l.map g := by
  have hshown : (l.map g)[i]? = some (g a) := by rw [List.getElem?_map, h]; rfl
  obtain ⟨hlt, heq⟩ := List.getElem?_eq_some_iff.1 hshown
  rw [List.map_set, hg, ← heq, List.set_getElem_self]

/-- After a replacement there is the new member, and everybody else. -/
theorem getElem?_set_cases {i j : Nat} {a b : A} (h : (l.set i a)[j]? = some b) :
    (j = i ∧ b = a) ∨ (j ≠ i ∧ l[j]? = some b) := by
  rw [List.getElem?_set] at h
  split_ifs at h with hij hlt
  · exact .inl ⟨hij.symm, (Option.some.inj h).symm⟩
  · exact .inr ⟨Ne.symm hij, h⟩

/-- With one more member there is everybody who was there, and the newcomer. -/
theorem getElem?_concat_cases {i : Nat} {a b : A} (h : (l ++ [a])[i]? = some b) :
    l[i]? = some b ∨ (i = l.length ∧ b = a) := by
  rcases Nat.lt_trichotomy i l.length with hlt | rfl | hgt
  · exact .inl ((List.getElem?_append_left hlt).symm.trans h)
  · rw [List.getElem?_concat_length] at h
    exact .inr ⟨rfl, (Option.some.inj h).symm⟩
  · rw [List.getElem?_eq_none (by rw [List.length_append]; exact hgt)] at h
    cases h

/-! ## Single members -/

/-- No member weighs more than all of them. -/
theorem le_tally {i : Nat} {a : A} (h : l[i]? = some a) : f a ≤ tally f l := by
  induction l generalizing i with
  | nil => simp at h
  | cons c l ih =>
      cases i with
      | zero =>
          rw [List.getElem?_cons_zero, Option.some.injEq] at h
          subst h
          rw [tally_cons]
          omega
      | succ i =>
          rw [List.getElem?_cons_succ] at h
          have hle := ih h
          rw [tally_cons]
          omega

/-- Two different members weigh no more than all of them. -/
theorem add_le_tally {i j : Nat} {a b : A} (hi : l[i]? = some a) (hj : l[j]? = some b)
    (hij : i ≠ j) : f a + f b ≤ tally f l := by
  induction l generalizing i j with
  | nil => simp at hi
  | cons c l ih =>
      rw [tally_cons]
      cases i with
      | zero =>
          rw [List.getElem?_cons_zero, Option.some.injEq] at hi
          subst hi
          cases j with
          | zero => exact absurd rfl hij
          | succ j =>
              have hle := le_tally (f := f) (l := l) (by simpa using hj)
              omega
      | succ i =>
          have hi' : l[i]? = some a := by simpa using hi
          cases j with
          | zero =>
              rw [List.getElem?_cons_zero, Option.some.injEq] at hj
              subst hj
              have hle := le_tally (f := f) hi'
              omega
          | succ j =>
              have hle := ih hi' (by simpa using hj) (by omega)
              omega

/-- If the list weighs anything then so does one of its members. -/
theorem exists_of_tally_pos (h : 0 < tally f l) :
    ∃ (i : Nat) (a : A), l[i]? = some a ∧ 0 < f a := by
  induction l with
  | nil => simp at h
  | cons c l ih =>
      by_cases hc : 0 < f c
      · exact ⟨0, c, rfl, hc⟩
      · rw [tally_cons] at h
        obtain ⟨i, a, hi, ha⟩ := ih (by omega)
        exact ⟨i + 1, a, by simpa using hi, ha⟩

/-- If nobody weighs anything then neither does the list. -/
theorem tally_eq_zero (h : ∀ (i : Nat) (a : A), l[i]? = some a → f a = 0) : tally f l = 0 := by
  by_contra hne
  obtain ⟨i, a, hi, ha⟩ := exists_of_tally_pos (Nat.pos_of_ne_zero hne)
  exact absurd (h i a hi) (by omega)

theorem tally_eq_zero_of_mem (h : ∀ a ∈ l, f a = 0) : tally f l = 0 :=
  tally_eq_zero fun _ a hi => h a (List.mem_of_getElem? hi)

/-- A member that alone weighs anything weighs as much as the list. -/
theorem tally_eq_of_alone {i : Nat} {a : A} (hi : l[i]? = some a)
    (halone : ∀ (j : Nat) (b : A), l[j]? = some b → 0 < f b → j = i) : tally f l = f a := by
  rw [tally_eq_add hi, tally_eq_zero, Nat.zero_add]
  intro j b hj
  by_contra hb
  rw [List.getElem?_eraseIdx] at hj
  split at hj
  · next hlt => exact absurd (halone j b hj (Nat.pos_of_ne_zero hb)) (Nat.ne_of_lt hlt)
  · next hge =>
    have heq := halone (j + 1) b hj (Nat.pos_of_ne_zero hb)
    omega

/-- If nobody weighs more than one then the list weighs no more than its length. -/
theorem tally_le_length (h : ∀ (i : Nat) (a : A), l[i]? = some a → f a ≤ 1) :
    tally f l ≤ l.length := by
  induction l with
  | nil => exact Nat.le_refl _
  | cons a l ih =>
      have ha := h 0 a rfl
      have hl := ih fun i b hb => h (i + 1) b (by simpa using hb)
      rw [tally_cons, List.length_cons]
      omega

/-- A tally grows with the weight. -/
theorem tally_le_tally (h : ∀ a, f a ≤ g a) (l : List A) : tally f l ≤ tally g l := by
  induction l with
  | nil => exact Nat.le_refl _
  | cons a l ih =>
      have ha := h a
      rw [tally_cons, tally_cons]
      omega

/-- A tally depends on the members only. -/
theorem tally_congr (h : ∀ a ∈ l, f a = g a) : tally f l = tally g l :=
  congrArg total (List.map_congr_left h)

theorem tally_add (f g : A → Nat) (l : List A) :
    tally (fun a => f a + g a) l = tally f l + tally g l := by
  induction l with
  | nil => rfl
  | cons a l ih =>
      rw [tally_cons, tally_cons, tally_cons, ih]
      omega

/-! ## Counting by a mark -/

/-- **Every member counts once**, under the mark that it has. -/
theorem tally_length_filter {K : Type} [DecidableEq K] (mark : A → K) {marks : List K}
    (hmarks : marks.Nodup) (hl : ∀ a ∈ l, mark a ∈ marks) :
    tally (fun k => (l.filter (mark · = k)).length) marks = l.length := by
  induction l with
  | nil => exact tally_eq_zero fun _ _ _ => rfl
  | cons a l ih =>
      have hrest := ih fun b hb => hl b (List.mem_cons_of_mem _ hb)
      -- the first member counts under its own mark and under no other
      have hone : tally (fun k => if mark a = k then 1 else 0) marks = 1 := by
        obtain ⟨i, hi⟩ := List.mem_iff_getElem?.1 (hl a (List.mem_cons_self ..))
        rw [tally_eq_of_alone hi, if_pos rfl]
        intro j k hj hpos
        obtain rfl : mark a = k := by
          by_contra hk
          rw [if_neg hk] at hpos
          cases hpos
        exact (List.getElem?_inj (List.getElem?_eq_some_iff.1 hi).1 hmarks).1 (hi.trans hj.symm)
          |>.symm
      have hterm : ∀ k ∈ marks, ((a :: l).filter (mark · = k)).length =
          (l.filter (mark · = k)).length + if mark a = k then 1 else 0 := by
        intro k _
        by_cases hk : mark a = k
        · simp [hk]
        · simp [hk]
      rw [tally_congr hterm, tally_add, hrest, hone, List.length_cons]

/-- **How often something occurs** among what the members bring. -/
theorem count_filterMap {B : Type} [DecidableEq B] (bring : A → Option B) (l : List A) (b : B) :
    (l.filterMap bring).count b = tally (fun a => if bring a = some b then 1 else 0) l := by
  induction l with
  | nil => rfl
  | cons a l ih =>
      rw [tally_cons, ← ih, List.filterMap_cons]
      cases hb : bring a with
      | none => simp
      | some b' =>
          by_cases heq : b' = b
          · simp [heq, Nat.add_comm]
          · simp [heq]

end Postal
