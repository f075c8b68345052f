import Mathlib.Tactic.Common
import Postal.Call

/-!
# Interleavings of a crowd, step by step.

A step of a crowd is a step of one caller: everybody else stays (`Crowd.step?_eq_some`). So whatever
every single step keeps holds after every interleaving (`Crowd.run_induction`).
-/

namespace Postal

/-- What a call still weighs after a step: its new position, or nothing once it has ended. -/
def Progress.weigh {P R : Type} (f : P → Nat) : Progress P R → Nat
  | .onward p => f p
  | .ended _ => 0

namespace Crowd

variable {S P : Type} {rule : Conduct S P} {c c' : Crowd S P}

/-- **One step** of a crowd: caller `i` goes on by the rule, everybody else stays. -/
theorem step?_eq_some {i : Nat} (h : c.step? rule i = some c') :
    ∃ p p' s', c.callers[i]? = some p ∧ rule.step? c.shared p = some (p', s') ∧
      c' = ⟨s', c.callers.set i p'⟩ := by
  simp only [step?, Option.bind_eq_bind, Option.bind_eq_some_iff, Prod.exists,
    Option.some.injEq] at h
  obtain ⟨p, hp, p', s', hstep, rfl⟩ := h
  exact ⟨p, p', s', hp, hstep, rfl⟩

/-- A caller that the rule lets go on can step. -/
theorem step?_of_rule {i : Nat} {p p' : P} {s' : S} (hp : c.callers[i]? = some p)
    (h : rule.step? c.shared p = some (p', s')) :
    c.step? rule i = some ⟨s', c.callers.set i p'⟩ := by
  simp only [step?, hp, Option.bind_eq_bind, Option.bind_some, h]

/-- **Induction over an interleaving.** What every step keeps holds at the end. -/
theorem run_induction {motive : Crowd S P → Prop}
    (hstep : ∀ {c c' : Crowd S P} {i : Nat}, motive c → c.step? rule i = some c' → motive c') :
    ∀ {schedule : List Nat} {c c' : Crowd S P}, motive c → c.run? rule schedule = some c' →
      motive c' := by
  intro schedule
  induction schedule with
  | nil =>
      intro c c' hc h
      exact Option.some.inj h ▸ hc
  | cons i schedule ih =>
      intro c c' hc h
      obtain ⟨c₁, hc₁, hrest⟩ := Option.bind_eq_some_iff.1 h
      exact ih (hstep hc hc₁) hrest

/-- A step of somebody else leaves a caller where it is. -/
theorem step?_other {i j : Nat} (h : c.step? rule i = some c') (hij : i ≠ j) :
    c'.callers[j]? = c.callers[j]? := by
  obtain ⟨p, p', s', hp, hrule, rfl⟩ := step?_eq_some h
  exact List.getElem?_set_ne hij

end Crowd

end Postal
