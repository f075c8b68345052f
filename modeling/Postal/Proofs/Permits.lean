import Postal.Gate
import Postal.Scale
import Postal.Proofs.Semaphore

/-!
# One section at the gate and at the scale.

Both are a semaphore with counters beside it. Everything that one section of an entry or of an
acquisition can do is said once (`Gate.Enters`, `Scale.Acquires`), with the section of the semaphore
that is inside it; what follows for both is read off from there: they fail only by an interruption,
they come to an end, and they wait only in the line.
-/

namespace Postal

namespace Gate

/-- **`Enters g pos progress g'`** — everything that the next section of an entry at `pos` can do.
-/
inductive Enters (g : Gate) : Entering → Progress Entering (Except Fault Nat) → Gate → Prop
  | waits {pos pos' : Semaphore.Acquiring} {permits : Semaphore}
      (h : g.permits.acquire? pos = some (.onward pos', permits)) :
      Enters g (.acquiring pos) (.onward (.acquiring pos')) { g with permits }
  | admitted {pos : Semaphore.Acquiring} {ticket : Nat} {permits : Semaphore}
      (h : g.permits.acquire? pos = some (.ended (.ok ticket), permits)) :
      Enters g (.acquiring pos) (.onward (.counting ticket)) { g with permits }
  | refused {pos : Semaphore.Acquiring} {f : Fault} {permits : Semaphore}
      (h : g.permits.acquire? pos = some (.ended (.error f), permits)) :
      Enters g (.acquiring pos) (.ended (.error f)) { g with permits }
  | counts {ticket : Nat} :
      Enters g (.counting ticket) (.ended (.ok ticket)) { g with occupancy := g.occupancy + 1 }

variable {g g' : Gate} {pos : Entering} {progress : Progress Entering (Except Fault Nat)}

theorem enters_of_enter? (h : g.enter? pos = some (progress, g')) : g.Enters pos progress g' := by
  cases pos with
  | acquiring pos =>
      obtain ⟨⟨progress', permits⟩, hacq, hend⟩ := Option.bind_eq_some_iff.1 h
      rcases progress' with pos' | ⟨f | ticket⟩
      · obtain ⟨rfl, rfl⟩ := Prod.mk.inj (Option.some.inj hend)
        exact .waits hacq
      · obtain ⟨rfl, rfl⟩ := Prod.mk.inj (Option.some.inj hend)
        exact .refused hacq
      · obtain ⟨rfl, rfl⟩ := Prod.mk.inj (Option.some.inj hend)
        exact .admitted hacq
  | counting ticket =>
      obtain ⟨rfl, rfl⟩ := Prod.mk.inj (Option.some.inj h)
      exact .counts

/-- Entering fails only by an interruption. -/
theorem enter?_fault {f : Fault} (h : g.enter? pos = some (.ended (.error f), g')) :
    f = .interrupted ∧ g.permits.closed = true := by
  cases enters_of_enter? h with
  | refused hacq => exact Semaphore.acquire?_fault hacq

/-- Steps that are left of an entry. -/
def Entering.left : Entering → Nat
  | .acquiring position => position.left + 1
  | .counting _ => 1

/-- An entry comes closer to its end with each of its sections. -/
theorem enter?_left {pos' : Entering} (h : g.enter? pos = some (.onward pos', g')) :
    pos'.left < pos.left := by
  cases enters_of_enter? h with
  | waits hacq => exact Nat.succ_lt_succ (Semaphore.acquire?_left hacq)
  | @admitted position ticket permits hacq => exact Nat.succ_lt_succ position.left_pos

/-- An entry waits only in the line. -/
theorem enter?_isSome
    (h : ∀ position, pos = .acquiring position → (g.permits.acquire? position).isSome = true) :
    (g.enter? pos).isSome = true := by
  cases pos with
  | counting ticket => rfl
  | acquiring position =>
      obtain ⟨⟨progress, permits⟩, hacq⟩ := Option.isSome_iff_exists.1 (h position rfl)
      simp only [enter?, hacq, Option.bind_eq_bind, Option.bind_some]
      split <;> rfl

end Gate

namespace Scale

/-- **`Acquires s pos progress s'`** — everything that the next section towards the scale can do. -/
inductive Acquires (s : Scale) : Acquiring → Progress Acquiring (Except Fault Unit) → Scale → Prop
  | missed (h : s.permit.tryAcquire = (false, s.permit)) :
      Acquires s .trying (.onward .counting) s
  | took {permit : Semaphore} (h : s.permit.tryAcquire = (true, permit)) :
      Acquires s .trying (.onward .raising) { s with permit }
  | counts :
      Acquires s .counting (.onward (.acquiring .arriving)) { s with waits := s.waits + 1 }
  | waits {pos pos' : Semaphore.Acquiring} {permit : Semaphore}
      (h : s.permit.acquire? pos = some (.onward pos', permit)) :
      Acquires s (.acquiring pos) (.onward (.acquiring pos')) { s with permit }
  | granted {pos : Semaphore.Acquiring} {ticket : Nat} {permit : Semaphore}
      (h : s.permit.acquire? pos = some (.ended (.ok ticket), permit)) :
      Acquires s (.acquiring pos) (.onward .raising) { s with permit }
  | refused {pos : Semaphore.Acquiring} {f : Fault} {permit : Semaphore}
      (h : s.permit.acquire? pos = some (.ended (.error f), permit)) :
      Acquires s (.acquiring pos) (.ended (.error f)) { s with permit }
  | raises :
      Acquires s .raising (.onward (.noting (s.holders + 1))) { s with holders := s.holders + 1 }
  | notes {holders : Nat} :
      Acquires s (.noting holders) (.ended (.ok ())) { s with peak := max s.peak holders }

variable {s s' : Scale} {pos : Acquiring} {progress : Progress Acquiring (Except Fault Unit)}

theorem acquires_of_acquire? (h : s.acquire? pos = some (progress, s')) :
    s.Acquires pos progress s' := by
  cases pos with
  | trying =>
      obtain ⟨taken, permit, htry⟩ : ∃ taken permit, s.permit.tryAcquire = (taken, permit) :=
        ⟨_, _, rfl⟩
      simp only [acquire?, htry] at h
      obtain ⟨rfl, rfl⟩ := Prod.mk.inj (Option.some.inj h)
      cases Semaphore.tries_of_tryAcquire htry with
      | failed hf => exact .missed htry
      | took hc hp hq => exact .took htry
  | counting =>
      obtain ⟨rfl, rfl⟩ := Prod.mk.inj (Option.some.inj h)
      exact .counts
  | acquiring pos =>
      obtain ⟨⟨progress', permit⟩, hacq, hend⟩ := Option.bind_eq_some_iff.1 h
      rcases progress' with pos' | ⟨f | ticket⟩
      · obtain ⟨rfl, rfl⟩ := Prod.mk.inj (Option.some.inj hend)
        exact .waits hacq
      · obtain ⟨rfl, rfl⟩ := Prod.mk.inj (Option.some.inj hend)
        exact .refused hacq
      · obtain ⟨rfl, rfl⟩ := Prod.mk.inj (Option.some.inj hend)
        exact .granted hacq
  | raising =>
      obtain ⟨rfl, rfl⟩ := Prod.mk.inj (Option.some.inj h)
      exact .raises
  | noting holders =>
      obtain ⟨rfl, rfl⟩ := Prod.mk.inj (Option.some.inj h)
      exact .notes

/-- Getting the scale fails only by an interruption. -/
theorem acquire?_fault {f : Fault} (h : s.acquire? pos = some (.ended (.error f), s')) :
    f = .interrupted ∧ s.permit.closed = true := by
  cases acquires_of_acquire? h with
  | refused hacq => exact Semaphore.acquire?_fault hacq

/-- Getting the scale comes closer to its end with each section. -/
theorem acquire?_left {pos' : Acquiring} (h : s.acquire? pos = some (.onward pos', s')) :
    pos'.left < pos.left := by
  cases acquires_of_acquire? h with
  | missed htry => decide
  | took htry => decide
  | counts => decide
  | waits hacq => exact Nat.add_lt_add_right (Semaphore.acquire?_left hacq) 2
  | @granted position ticket permit hacq => exact Nat.lt_add_of_pos_left position.left_pos
  | raises => exact Nat.lt_succ_self 1

/-- Getting the scale waits only in the line. -/
theorem acquire?_isSome
    (h : ∀ position, pos = .acquiring position → (s.permit.acquire? position).isSome = true) :
    (s.acquire? pos).isSome = true := by
  cases pos with
  | acquiring position =>
      obtain ⟨⟨progress, permit⟩, hacq⟩ := Option.isSome_iff_exists.1 (h position rfl)
      simp only [acquire?, hacq, Option.bind_eq_bind, Option.bind_some]
      split <;> rfl
  | _ => rfl

/-- The sections of an acquisition of the scale open and close nothing. -/
theorem acquire?_closed_eq (h : s.acquire? pos = some (progress, s')) :
    s'.permit.closed = s.permit.closed := by
  cases acquires_of_acquire? h with
  | took htry => exact Semaphore.tryAcquire_closed_eq htry
  | waits hacq => exact Semaphore.acquire?_closed_eq hacq
  | granted hacq => exact Semaphore.acquire?_closed_eq hacq
  | refused hacq => exact Semaphore.acquire?_closed_eq hacq
  | _ => rfl

theorem drop_closed (s : Scale) (pos : Dropping) :
    (s.drop pos).2.permit.closed = s.permit.closed := by
  cases pos with
  | counted => rfl
  | releasing => exact Semaphore.releaseOrKeep_closed _

end Scale

end Postal
