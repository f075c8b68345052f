import Mathlib.Logic.Function.Iterate
import Postal.Plan

/-!
# Drawn tasks are a beginning of one sequence.

A draw takes one word of the stream, or two, depending on the words themselves. So the place of a
draw in the stream is known only from all draws before it, but from nothing else: the task that is
drawn at some number is the same, however many tasks are drawn after it.

* §1 — one draw: the index is below the bound, also where a second word decides about a carry.
* §2 — one draw after another: the index of each from where the draws before it have led.
* §3 — the tasks of a seed, and the customers who come with them.
-/

namespace Postal.Random

/-! ## §1 — one draw -/

section Index

variable {word bound : Nat}

/-- The high half of the product of a word and the bound is an index. -/
theorem high_lt (hword : word < Nat.pow 2 32) (hbound : 0 < bound) :
    word * bound / Nat.pow 2 32 < bound :=
  Nat.div_lt_of_lt_mul (Nat.mul_lt_mul_of_pos_right hword hbound)

/-- **A carry never leads past the last index.** Where the low half of the product is so near to its
end that a carry is possible, the high half is not the last index: even the largest product is short
of its end by the bound, so with the last index the low half is short of its end by as much. -/
theorem high_succ_lt (hword : word < Nat.pow 2 32)
    (hnear : Nat.pow 2 32 - bound < word * bound % Nat.pow 2 32) :
    word * bound / Nat.pow 2 32 + 1 < bound := by
  by_contra hlast
  have hparts := Nat.div_add_mod (word * bound) (Nat.pow 2 32)
  have hproduct : word * bound + bound ≤ Nat.pow 2 32 * bound := by
    rw [← Nat.succ_mul]
    exact Nat.mul_le_mul_right bound hword
  have hhigh : Nat.pow 2 32 * bound ≤
      Nat.pow 2 32 * (word * bound / Nat.pow 2 32) + Nat.pow 2 32 := by
    rw [← Nat.mul_succ]
    exact Nat.mul_le_mul_left _ (Nat.le_of_not_lt hlast)
  omega

/-- **Every index is below the bound**, whatever the words of the stream are. -/
theorem index_lt (words : Nat → UInt32) (hbound : 0 < bound) (position : Nat) :
    (index words bound position).1 < bound := by
  have hword : (words position).toNat < Nat.pow 2 32 := (words position).toNat_lt
  rw [index]
  split
  · next hnear =>
    show (if _ then _ else _) < bound
    split
    · exact high_succ_lt hword hnear
    · exact high_lt hword hbound
  · exact high_lt hword hbound

/-- An index below their number is the index of the task that is drawn. -/
theorem all_getElem?_of_lt {i : Nat} (hi : i < Task.all.length) :
    Task.all[i]? = some (taskAt i) :=
  match i, hi with
  | 0, _ => rfl
  | 1, _ => rfl
  | 2, _ => rfl

end Index

/-! ## §2 — one draw after another -/

section Draws

variable (words : Nat → UInt32)

/-- The position in the stream after so many draws. -/
def reached (bound position count : Nat) : Nat :=
  (fun p => (index words bound p).2)^[count] position

/-- The index that comes out after so many other draws. -/
def drawn (bound position count : Nat) : Nat :=
  (index words bound (reached words bound position count)).1

theorem drawn_lt {bound : Nat} (hbound : 0 < bound) (position count : Nat) :
    drawn words bound position count < bound := index_lt words hbound _

/-- Each draw stands for itself: by induction on their number, where the first draw moves the
position on for all others. -/
theorem draw_eq_map (count position : Nat) :
    draw words count position =
      (List.range count).map fun k => taskAt (drawn words Task.all.length position k) := by
  induction count generalizing position with
  | zero => rfl
  | succ count ih =>
      show taskAt _ :: draw words count _ = _
      rw [ih, List.range_succ_eq_map, List.map_cons, List.map_map]
      rfl

/-- What is drawn are the tasks at the indices that come out. -/
theorem map_some_draw (count position : Nat) :
    (draw words count position).map some =
      (List.range count).map fun k => Task.all[drawn words Task.all.length position k]? := by
  rw [draw_eq_map, List.map_map]
  refine List.map_congr_left fun k _ => ?_
  exact (all_getElem?_of_lt (drawn_lt words (by decide) position k)).symm

theorem length_draw (count position : Nat) : (draw words count position).length = count := by
  rw [draw_eq_map, List.length_map, List.length_range]

/-- **Fewer draws are a beginning of more draws.** -/
theorem take_draw {n m : Nat} (hnm : n ≤ m) (position : Nat) :
    (draw words m position).take n = draw words n position := by
  rw [draw_eq_map, draw_eq_map, ← List.map_take, List.take_range, Nat.min_eq_left hnm]

theorem draw_getElem? {k count : Nat} (hk : k < count) (position : Nat) :
    (draw words count position)[k]? = some (taskAt (drawn words Task.all.length position k)) := by
  rw [draw_eq_map, List.getElem?_map, List.getElem?_range hk, Option.map_some]

end Draws

/-! ## §3 — the tasks of a seed -/

/-- A customer has the number of its task. -/
theorem ofTasks_getElem? (tasks : List Task) (i : Nat) :
    (Customer.ofTasks tasks)[i]? = tasks[i]?.map (⟨i, ·⟩) := List.getElem?_mapIdx

/-- **Seeded draws are stable, and they never miss.** As many tasks of a seed are drawn as are asked
for, and they are the first of all that could be drawn. Take any stream of words, any position and
any number of draws: the index that comes out next is below the number of tasks, and what is drawn
are the tasks at the indices. The tasks of a seed are those at the indices that come out of its own
stream, from its first word on. So the customer with some number comes with the task at the index of
that number, on every day that is large enough to have that customer. -/
theorem seeded_draws_are_stable :
    (∀ seed n m : Nat, n ≤ m →
      (tasks seed n).length = n ∧ tasks seed n = (tasks seed m).take n) ∧
    (∀ (words : Nat → UInt32) (position count : Nat),
      drawn words Task.all.length position count < Task.all.length ∧
      (draw words count position).map some =
        (List.range count).map fun k => Task.all[drawn words Task.all.length position k]?) ∧
    (∀ seed count : Nat, (tasks seed count).map some =
      (List.range count).map fun k => Task.all[drawn (stream seed) Task.all.length 0 k]?) ∧
    ∀ seed i : Nat, ∃ t : Task, Task.all[drawn (stream seed) Task.all.length 0 i]? = some t ∧
      ∀ n : Nat, i < n → (Customer.ofTasks (tasks seed n))[i]? = some ⟨i, t⟩ := by
  refine ⟨fun seed n m hnm => ⟨length_draw _ n 0, (take_draw _ hnm 0).symm⟩,
    fun words position count => ⟨drawn_lt words (by decide) position count, ?_⟩,
    fun seed count => map_some_draw (stream seed) count 0, fun seed i => ?_⟩
  · exact map_some_draw words count position
  · have hlt : drawn (stream seed) Task.all.length 0 i < Task.all.length :=
      drawn_lt (stream seed) (by decide) 0 i
    refine ⟨taskAt (drawn (stream seed) Task.all.length 0 i), all_getElem?_of_lt hlt,
      fun n hi => ?_⟩
    rw [ofTasks_getElem?, tasks, draw_getElem? _ hi, Option.map_some]

/-- Of five tasks the first two are those of a day for two, and the second customer of both comes
with the task at the second index. And where the words are two thirds of their range and then the
largest there is, a carry makes the last index of what was the one before it. -/
theorem seeded_draws_are_stable_carried :
    let words : Nat → UInt32 := fun p => if p = 0 then 0xaaaaaaaa else 0xffffffff
    (2 ≤ 5 ∧ tasks 7 2 = (tasks 7 5).take 2 ∧
      ∃ t : Task, Task.all[drawn (stream 7) Task.all.length 0 1]? = some t ∧
        1 < 2 ∧ (Customer.ofTasks (tasks 7 2))[1]? = some ⟨1, t⟩ ∧
        1 < 5 ∧ (Customer.ofTasks (tasks 7 5))[1]? = some ⟨1, t⟩) ∧
    (words 0).toNat * Task.all.length / Nat.pow 2 32 = 1 ∧
      reached words Task.all.length 0 1 = 2 ∧ drawn words Task.all.length 0 0 = 2 ∧
      drawn words Task.all.length 0 0 < Task.all.length := by
  intro words
  obtain ⟨hstable, hsafe, -, hcustomers⟩ := seeded_draws_are_stable
  obtain ⟨t, hindex, ht⟩ := hcustomers 7 1
  exact ⟨⟨by decide, (hstable 7 2 5 (by decide)).2, t, hindex, by decide, ht 2 (by decide),
    by decide, ht 5 (by decide)⟩, by decide, by decide, by decide, (hsafe words 0 0).1⟩

end Postal.Random
