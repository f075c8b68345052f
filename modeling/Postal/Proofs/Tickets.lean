import Postal.Proofs.Breach

/-!
# One ticket for each customer.

Who enters the gate draws a ticket, which it takes along on its visit and leaves with. In a calm
office nobody loses a ticket, so the tickets that people have are those that the gate has given out,
each of them once (`Floor.Ticketed`).

## §1 — the ticket of a customer.
## §2 — all tickets.
-/

namespace Postal

/-! ## §1 — the ticket of a customer -/

/-- The ticket that an acquisition has drawn. -/
def Semaphore.Acquiring.ticket? : Acquiring → Option Nat
  | .arriving => none
  | .queued ticket => some ticket

/-- The ticket that a customer has drawn. A visit that fails loses it. -/
def Visiting.ticket? : Visiting → Option Nat
  | .entering (.acquiring pos) => pos.ticket?
  | .entering (.counting ticket) | .admitted ticket => some ticket
  | .announcingAdmission stay | .claiming stay _ | .dealing stay _ _ => some stay.ticket
  | .leaving _ (.returned visit) | .ended (.returned visit) => some visit.ticket
  | _ => none

/-- Whether a person has drawn ticket `n`, as a weight. -/
def Person.drawn (n : Nat) : Person → Nat
  | .customer _ v => if v.ticket? = some n then 1 else 0
  | _ => 0

/-- Whether a semaphore has given out ticket `n`, as a weight. -/
def Semaphore.issued (s : Semaphore) (n : Nat) : Nat := if n < s.nextTicket then 1 else 0

/-- Giving a permit back gives out no ticket. -/
theorem Semaphore.issued_releaseOrKeep (s : Semaphore) (n : Nat) :
    s.releaseOrKeep.issued n = s.issued n := by
  rcases Nat.lt_or_ge s.permits s.ceiling with h | h
  · rw [releaseOrKeep_of_lt h]
    rfl
  · rw [releaseOrKeep_of_le h]

/-- The ticket that an acquisition has drawn after one of its sections. -/
def Semaphore.ticketAfter : Progress Acquiring (Except Fault Nat) → Option Nat
  | .onward pos => pos.ticket?
  | .ended (.ok ticket) => some ticket
  | .ended (.error _) => none

/-- **A section of an acquisition** that does not fail draws the next ticket, or keeps the one that
is drawn. -/
theorem Semaphore.acquire?_draws {s s' : Semaphore} {pos : Acquiring}
    {progress : Progress Acquiring (Except Fault Nat)} (h : s.acquire? pos = some (progress, s'))
    (hopen : s.closed = false) (n : Nat) :
    (if ticketAfter progress = some n then 1 else 0) + s.issued n =
      (if pos.ticket? = some n then 1 else 0) + s'.issued n := by
  -- a caller that arrives has the ticket that the semaphore gives out
  have draws : (if s.nextTicket = n then 1 else 0) + (if n < s.nextTicket then 1 else 0) =
      if n < s.nextTicket + 1 then 1 else 0 := by
    split_ifs <;> omega
  cases acquires_of_acquire? h with
  | refused _ hc =>
      rw [hopen] at hc
      cases hc
  | queues hc hg => simpa [ticketAfter, Acquiring.ticket?, issued] using draws
  | servedAtOnce hc hn hp => simpa [ticketAfter, Acquiring.ticket?, issued] using draws
  | served ticket hc hn hp => rfl

/-- **A step of a customer** that does not fail draws the next ticket, or keeps its own. -/
theorem Visiting.Steps.draws {c : Customer} {p p' : Premises} {v v' : Visiting}
    (h : v.Steps c p v' p') (hopen : p.gate.permits.closed = false) (hsound : v'.failure? = none)
    (n : Nat) :
    (Person.customer c v').drawn n + p.gate.permits.issued n =
      (Person.customer c v).drawn n + p'.gate.permits.issued n := by
  cases h with
  | enters henter =>
      cases Gate.enters_of_enter? henter with
      | waits hacq => exact Semaphore.acquire?_draws hacq hopen n
      | admitted hacq => exact Semaphore.acquire?_draws hacq hopen n
      | refused hacq => cases hsound
      | counts => rfl
  | @claims stay pos progress pool hclaim =>
      rcases progress with pos' | ⟨e | worker⟩
      · rfl
      · cases hsound
      · simp only [Progress.within, afterSearch] at hsound ⊢
        split at hsound
        · next hw =>
          rw [if_pos hw]
          rfl
        · cases hsound
  | interrupted hwaits hclosed => cases hsound
  | @stepsOut ending => cases ending <;> rfl
  | @leaves ending =>
      show _ = _ + p.gate.permits.releaseOrKeep.issued n
      rw [Semaphore.issued_releaseOrKeep]
      cases ending <;> rfl
  | breaks hs hneeds hphase f => cases hsound
  | _ => rfl

/-! ## §2 — all tickets -/

namespace Floor

/-- **`f.Ticketed`** — whoever has drawn a ticket has one that the gate has given out, and of those
everybody has a different one. -/
def Ticketed (f : Floor) : Prop :=
  ∀ n, tally (Person.drawn n) f.people = f.premises.gate.permits.issued n

/-- Nobody draws a ticket in an exchange. -/
theorem Swaps.drawn {p p' : Person} (h : Swaps p p') (n : Nat) : p'.drawn n = p.drawn n := by
  cases h <;> rfl

/-- **A move that nobody fails in** keeps it that everybody has a ticket of its own. -/
theorem Ticketed.move {f f' : Floor} {m : Move} (h : f.Ticketed) (hmove : f.move? m = some f')
    (hopen : f.premises.IsOpen) (hunclosed : .closer ∉ f.badges)
    (hsound : ∀ (i : Nat) (p : Person), f'.people[i]? = some p → p.Sound False)
    (hm : ∀ i, m ≠ .unwind i) (hjoin : ∀ p, m = .join p → ∀ n, p.drawn n = 0) : f'.Ticketed := by
  intro n
  have hwas := h n
  cases m with
  | step i =>
      cases steps_of_step? hmove with
      | @customer c v v' p' hi hv =>
          have hself : v'.failure? = none := by
            cases hfailure : v'.failure? with
            | none => rfl
            | some e =>
                have hi' := List.getElem?_set_self (a := Person.customer c v')
                  (List.getElem?_eq_some_iff.1 hi).1
                exact (hsound i _ hi' e hfailure).2.elim
          have hset := tally_set (f := Person.drawn n) hi (.customer c v')
          have hdraws := hv.draws hopen.gate hself n
          show tally (Person.drawn n) (f.people.set i (.customer c v')) = p'.gate.permits.issued n
          omega
      | @worker w k k' p' hi hk =>
          have hsame : tally (Person.drawn n) (f.people.set i (.worker w k')) =
              tally (Person.drawn n) f.people := tally_set_of_eq hi rfl
          rw [hk.gate_eq]
          exact hsame.trans hwas
      | closer hi hk => exact absurd (List.mem_of_getElem? (badge_of_getElem? hi)) hunclosed
  | exchange i j =>
      obtain ⟨w, people', -, hex, rfl⟩ := exchanges_of_exchange? hmove
      exact (hex.tally_eq fun hs => hs.drawn n).trans hwas
  | unwind i => exact absurd rfl (hm i)
  | fire =>
      obtain rfl := Option.some.inj hmove
      exact hwas
  | join p =>
      obtain rfl := Option.some.inj hmove
      rw [Floor.join, tally_concat, hjoin p rfl n, Nat.add_zero]
      exact hwas

end Floor

end Postal
