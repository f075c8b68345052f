import Mathlib.Data.List.Basic
import Mathlib.Tactic.Common

/-!
# What has happened in a run.

Of a run one often wants to know more than where it ends: who was served, and in which order; which
call has changed what. The **course** of a run is the list of its moves, each with the state before
and the state after it. A statement about the past is an invariant of the course and the state
together, and it is proved along `Runs`, which grows at its end: all that has happened so far is
given, and one more move is made.
-/

namespace Postal

/-- One move of a run, with the states before and after it. -/
structure Happening (S M : Type) where
  before : S
  move : M
  after : S

section Course

variable {S M : Type}

/-- **`course move? ms s`** — what happens from `s` on, as long as the moves are possible. -/
def course (move? : S → M → Option S) : List M → S → List (Happening S M)
  | [], _ => []
  | m :: ms, s =>
    match move? s m with
    | none => []
    | some s' => ⟨s, m, s'⟩ :: course move? ms s'

/-- **`Runs move? s xs s'`** — on the way from `s` to `s'` exactly `xs` has happened. -/
inductive Runs (move? : S → M → Option S) (s : S) : List (Happening S M) → S → Prop
  | start : Runs move? s [] s
  | more {xs : List (Happening S M)} {s₁ s₂ : S} {m : M} (h : Runs move? s xs s₁)
      (hm : move? s₁ m = some s₂) : Runs move? s (xs ++ [⟨s₁, m, s₂⟩]) s₂

variable {move? : S → M → Option S} {run? : List M → S → Option S} {s s₁ s₂ : S}
  {xs : List (Happening S M)} {ms : List M}

/-- A run goes on where another one ends; `run?` is any function that makes one move after the
other. -/
theorem Runs.follow (hnil : ∀ s, run? [] s = some s)
    (hcons : ∀ m ms s, run? (m :: ms) s = (move? s m).bind (run? ms)) (h : Runs move? s xs s₁)
    (hrun : run? ms s₁ = some s₂) : Runs move? s (xs ++ course move? ms s₁) s₂ := by
  induction ms generalizing xs s₁ with
  | nil =>
      rw [hnil, Option.some.injEq] at hrun
      subst hrun
      rw [course, List.append_nil]
      exact h
  | cons m ms ih =>
      rw [hcons, Option.bind_eq_some_iff] at hrun
      obtain ⟨s', hm, hrest⟩ := hrun
      have hmore := ih (h.more hm) hrest
      rw [List.append_assoc] at hmore
      simp only [course, hm]
      exact hmore

/-- **The course of a run** is what has happened in it. -/
theorem runs_of_run? (hnil : ∀ s, run? [] s = some s)
    (hcons : ∀ m ms s, run? (m :: ms) s = (move? s m).bind (run? ms))
    (hrun : run? ms s = some s₁) : Runs move? s (course move? ms s) s₁ :=
  Runs.start.follow hnil hcons hrun

/-- **A run that makes one move more** has that move at the end of its course. -/
theorem course_concat (hnil : ∀ s, run? [] s = some s)
    (hcons : ∀ m ms s, run? (m :: ms) s = (move? s m).bind (run? ms)) {m : M}
    (hrun : run? (ms ++ [m]) s = some s₂) :
    ∃ s₁, run? ms s = some s₁ ∧ move? s₁ m = some s₂ ∧
      course move? (ms ++ [m]) s = course move? ms s ++ [⟨s₁, m, s₂⟩] := by
  induction ms generalizing s with
  | nil =>
      rw [List.nil_append, hcons] at hrun
      obtain ⟨s', hm, hrest⟩ := Option.bind_eq_some_iff.1 hrun
      obtain rfl := Option.some.inj ((hnil s').symm.trans hrest)
      exact ⟨s, hnil s, hm, by simp only [List.nil_append, course, hm]⟩
  | cons m₁ ms ih =>
      rw [List.cons_append, hcons] at hrun
      obtain ⟨s', hm₁, hrest⟩ := Option.bind_eq_some_iff.1 hrun
      obtain ⟨s₁, hfirst, hm, hcourse⟩ := ih hrest
      refine ⟨s₁, ?_, hm, by simp only [List.cons_append, course, hm₁, hcourse]⟩
      rw [hcons, hm₁]
      exact hfirst

/-- Only moves that are possible have happened. -/
theorem Runs.possible (h : Runs move? s xs s₁) {x : Happening S M} (hx : x ∈ xs) :
    move? x.before x.move = some x.after := by
  induction h with
  | start => cases hx
  | more h hm ih =>
      rcases List.mem_append.1 hx with hx | hx
      · exact ih hx
      · obtain rfl := List.mem_singleton.1 hx
        exact hm

/-- Only moves of the run happen in it. -/
theorem move_mem_of_course {x : Happening S M} (hx : x ∈ course move? ms s) : x.move ∈ ms := by
  induction ms generalizing s with
  | nil => cases hx
  | cons m ms ih =>
      rw [course] at hx
      split at hx
      · cases hx
      · rcases List.mem_cons.1 hx with rfl | hx
        · exact List.mem_cons_self
        · exact List.mem_cons_of_mem _ (ih hx)

/-- What is picked out of a list, when one more member comes. -/
theorem filterMap_concat {A B : Type} (pick : A → Option B) (l : List A) (a : A) :
    (l ++ [a]).filterMap pick = l.filterMap pick ++ (pick a).toList := by
  rw [List.filterMap_append]
  cases ha : pick a <;> simp [ha]

end Course

end Postal
