import Postal.Proofs.Course
import Postal.Proofs.Semaphore
import Postal.Proofs.Tally

/-!
# Turnstiles: permits, and a count of those who hold one.

The gate and the scale are made alike. Whoever wants in takes a permit first and is counted
afterwards, and on the way out it is uncounted before it gives the permit back; so between two steps
of a caller the count and the permits tell different things. What they tell together is said here
for both: a permit is free or in somebody's hand, and the count is the tally of those who are
counted (`Turnstile.Kept`). That holds after every move, whoever comes, turns round or closes the
thing in the meantime, and with it nobody's permit is ever refused when it comes back
(`Turnstile.Kept.release`).

## §1 — what can happen at a shared thing that its callers come to and leave.
## §2 — turnstiles, and what every move at one of them keeps.
-/

namespace Postal

/-! ## §1 — coming and going -/

/-- What callers do at a shared thing: they step by its rule, they turn round once they have got
what they came for, and anybody may close it. -/
structure Custom (S P : Type) where
  conduct : Conduct S P
  turn : P → P
  close : S → S

namespace Custom

variable {S P : Type}

/-- What can happen next. -/
inductive Move (P : Type) where
  /-- Caller `i` takes its next step. -/
  | step (i : Nat)
  /-- Caller `i` turns round. -/
  | turn (i : Nat)
  | close
  /-- One more caller comes. -/
  | join (p : P)
  deriving DecidableEq

section Moves

variable (k : Custom S P)

/-- The crowd after a move, if the move is possible. -/
def move? (c : Crowd S P) : Move P → Option (Crowd S P)
  | .step i => c.step? k.conduct i
  | .turn i => (c.callers[i]?).map fun p => { c with callers := c.callers.set i (k.turn p) }
  | .close => some { c with shared := k.close c.shared }
  | .join p => some (c.join p)

/-- The crowd after all the moves of a run. -/
def run? : List (Move P) → Crowd S P → Option (Crowd S P)
  | [], c => some c
  | m :: ms, c => (k.move? c m).bind (run? ms)

/-- **`k.Moves c m c'`** — everything that a move can do: one caller steps or turns round and
everybody else stays, or the thing is closed, or one more caller comes. -/
inductive Moves (c : Crowd S P) : Move P → Crowd S P → Prop
  | steps {i : Nat} {p p' : P} {s' : S} (hi : c.callers[i]? = some p)
      (h : k.conduct.step? c.shared p = some (p', s')) :
      Moves c (.step i) ⟨s', c.callers.set i p'⟩
  | turns {i : Nat} {p : P} (hi : c.callers[i]? = some p) :
      Moves c (.turn i) ⟨c.shared, c.callers.set i (k.turn p)⟩
  | closes : Moves c .close ⟨k.close c.shared, c.callers⟩
  | comes {p : P} : Moves c (.join p) ⟨c.shared, c.callers ++ [p]⟩

end Moves

variable {k : Custom S P}

theorem moves_of_move? {c c' : Crowd S P} {m : Move P} (h : k.move? c m = some c') :
    k.Moves c m c' := by
  cases m with
  | step i =>
      obtain ⟨p, p', s', hi, hstep, rfl⟩ := Crowd.step?_eq_some h
      exact .steps hi hstep
  | turn i =>
      obtain ⟨p, hi, rfl⟩ := Option.map_eq_some_iff.1 h
      exact .turns hi
  | close =>
      obtain rfl := Option.some.inj h
      exact .closes
  | join p =>
      obtain rfl := Option.some.inj h
      exact .comes

/-- The course of a run at a thing that nobody has come to yet. -/
theorem runs_course {s : S} {moves : List (Move P)} {c : Crowd S P}
    (hrun : k.run? moves (.ofShared s) = some c) :
    Runs k.move? (.ofShared s) (course k.move? moves (.ofShared s)) c :=
  runs_of_run? (fun _ => rfl) (fun _ _ _ => rfl) hrun

/-- What `look` sees of a move, and of which caller. -/
def seen {A : Type} (look : P → P → Option A) (x : Happening (Crowd S P) (Move P)) :
    Option (Nat × A) :=
  match x.move with
  | .step i => do
    let p ← x.before.callers[i]?
    let p' ← x.after.callers[i]?
    (look p p').map (i, ·)
  | _ => none

theorem seen_step {A : Type} {look : P → P → Option A} {c : Crowd S P} {i : Nat} {p : P}
    (hi : c.callers[i]? = some p) (p' : P) (s' : S) :
    seen look ⟨c, .step i, ⟨s', c.callers.set i p'⟩⟩ = (look p p').map (i, ·) := by
  have hi' : (c.callers.set i p')[i]? = some p' :=
    List.getElem?_set_self (List.getElem?_eq_some_iff.1 hi).1
  simp only [seen, hi, hi', Option.bind_eq_bind, Option.bind_some]

end Custom

namespace Crowd

variable {S P A : Type} {look : P → Option A} {c : Crowd S P} {i j : Nat} {a : A}

/-- **`c.Shows look i a`** — whoever looks at caller `i` sees `a`. -/
def Shows (look : P → Option A) (c : Crowd S P) (i : Nat) (a : A) : Prop :=
  ∃ p, c.callers[i]? = some p ∧ look p = some a

/-- After a replacement the new caller shows something, or somebody who did before. -/
theorem shows_set {p' : P} {s' : S} (h : Shows look ⟨s', c.callers.set i p'⟩ j a) :
    (j = i ∧ look p' = some a) ∨ c.Shows look j a := by
  obtain ⟨p, hj, hp⟩ := h
  rcases getElem?_set_cases hj with ⟨rfl, rfl⟩ | ⟨-, hj⟩
  · exact .inl ⟨rfl, hp⟩
  · exact .inr ⟨p, hj, hp⟩

/-- With one more caller, the newcomer shows something, or somebody who did before. -/
theorem shows_concat {p' : P} {s' : S} (h : Shows look ⟨s', c.callers ++ [p']⟩ j a) :
    look p' = some a ∨ c.Shows look j a := by
  obtain ⟨p, hj, hp⟩ := h
  rcases getElem?_concat_cases hj with hj | ⟨-, rfl⟩
  · exact .inr ⟨p, hj, hp⟩
  · exact .inl hp

end Crowd

/-! ## §2 — turnstiles -/

/-- **A turnstile** has a semaphore and a count. What a caller has in hand, and whether it is
counted, is a matter of its position; a step takes permits and counts accordingly, and neither a
turn nor a close does any of it. -/
structure Turnstile {S P : Type} (k : Custom S P) where
  permits : S → Semaphore
  count : S → Nat
  hand : P → Semaphore.Hand
  counted : P → Nat
  uses : ∀ {s s' : S} {p p' : P}, k.conduct.step? s p = some (p', s') →
    (permits s).Uses (permits s') (hand p) (hand p')
  counts : ∀ {s s' : S} {p p' : P}, k.conduct.step? s p = some (p', s') → counted p ≤ count s →
    count s' + counted p = count s + counted p'
  turns : ∀ p, hand (k.turn p) = hand p ∧ counted (k.turn p) = counted p
  closes : ∀ s, permits (k.close s) = (permits s).close ∧ count (k.close s) = count s

namespace Turnstile

variable {S P : Type} {k : Custom S P} (t : Turnstile k)

/-- How many permits a caller has in hand. -/
def held (p : P) : Nat := (t.hand p).permits

/-- **`t.Kept total c`** — each of `total` permits is free or in the hand of one caller, and the
count is that of the callers who are counted. -/
structure Kept (total : Nat) (c : Crowd S P) : Prop where
  permits : (t.permits c.shared).Conserved (tally t.held c.callers) total
  count : t.count c.shared = tally t.counted c.callers

/-- A caller that has nothing in hand and is not counted. -/
def Fresh (p : P) : Prop := t.held p = 0 ∧ t.counted p = 0

variable {t} {total : Nat} {c c' : Crowd S P} {i : Nat} {p : P}

/-- **A step** keeps the permits and the count. -/
theorem Kept.step {p' : P} {s' : S} (h : t.Kept total c) (hi : c.callers[i]? = some p)
    (hstep : k.conduct.step? c.shared p = some (p', s')) :
    t.Kept total ⟨s', c.callers.set i p'⟩ := by
  refine ⟨?_, ?_⟩
  · have hpermits := h.permits
    rw [tally_eq_add hi] at hpermits
    rw [tally_set_eq_add hi]
    exact hpermits.passes (t.uses hstep).passes
  · have hcount := h.count
    have hle : t.counted p ≤ t.count c.shared := hcount ▸ le_tally hi
    have hcounts := t.counts hstep hle
    have hset := tally_set (f := t.counted) hi p'
    show t.count s' = tally t.counted (c.callers.set i p')
    omega

/-- **Every move** keeps the permits and the count; newcomers bring nothing. -/
theorem Kept.move {m : Custom.Move P} (h : t.Kept total c) (hmove : k.move? c m = some c')
    (hjoin : ∀ p, m = .join p → t.Fresh p) : t.Kept total c' := by
  cases Custom.moves_of_move? hmove with
  | steps hi hstep => exact h.step hi hstep
  | @turns i p hi =>
      obtain ⟨hhand, hcounted⟩ := t.turns p
      have hheld : t.held (k.turn p) = t.held p := congrArg Semaphore.Hand.permits hhand
      refine ⟨?_, ?_⟩
      · rw [tally_set_of_eq hi hheld]
        exact h.permits
      · rw [tally_set_of_eq hi hcounted]
        exact h.count
  | closes =>
      obtain ⟨hpermits, hcount⟩ := t.closes c.shared
      refine ⟨?_, hcount.trans h.count⟩
      rw [hpermits]
      exact ⟨h.permits.room, h.permits.balance⟩
  | @comes p =>
      obtain ⟨hheld, hcounted⟩ := hjoin p rfl
      refine ⟨?_, ?_⟩
      · rw [tally_concat, hheld]
        exact h.permits
      · rw [tally_concat, hcounted]
        exact h.count

/-- **Whoever holds a permit can give it back.** -/
theorem Kept.release (h : t.Kept total c) (hi : c.callers[i]? = some p) (hp : 0 < t.held p) :
    (t.permits c.shared).release =
      .ok { t.permits c.shared with permits := (t.permits c.shared).permits + 1 } :=
  h.permits.release (Nat.lt_of_lt_of_le hp (le_tally hi))

/-- No more is counted of a caller than the count tells. -/
theorem Kept.counted_le (h : t.Kept total c) (hi : c.callers[i]? = some p) :
    t.counted p ≤ t.count c.shared :=
  h.count ▸ le_tally hi

/-- When nobody holds a permit, all of them are free. -/
theorem Kept.all_free (h : t.Kept total c) (hnobody : ∀ p ∈ c.callers, t.held p = 0) :
    (t.permits c.shared).permits = total :=
  h.permits.all_free (tally_eq_zero_of_mem hnobody)

/-- When nobody is counted, the count is zero. -/
theorem Kept.uncounted (h : t.Kept total c) (hnobody : ∀ p ∈ c.callers, t.counted p = 0) :
    t.count c.shared = 0 := by
  rw [h.count]
  exact tally_eq_zero_of_mem hnobody

end Turnstile

end Postal
