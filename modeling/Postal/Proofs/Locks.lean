import Postal.Proofs.Facilities

/-!
# Nothing is closed before a close has begun.

Everything that can be closed has a lock: the gate, the aggregate, the scale, every token and every
slot. Customers and workers never turn a lock, only a close does; so before somebody has begun to
close the office everything is open (`Floor.Guarded`).
-/

namespace Postal

/-- Whether the gate, the aggregate, the scale, the tokens and the slots are closed. -/
def Premises.locks (p : Premises) : List Bool :=
  p.gate.permits.closed :: p.pool.available.closed :: p.scale.permit.closed ::
    (p.pool.slots.map (·.closed) ++ p.slots.map (·.closed))

/-- Nothing is closed. -/
def Premises.IsOpen (p : Premises) : Prop := ∀ b ∈ p.locks, b = false

namespace Premises

variable {p : Premises}

theorem IsOpen.gate (h : p.IsOpen) : p.gate.permits.closed = false := h _ (by simp [locks])

theorem IsOpen.available (h : p.IsOpen) : p.pool.available.closed = false := h _ (by simp [locks])

theorem IsOpen.scale (h : p.IsOpen) : p.scale.permit.closed = false := h _ (by simp [locks])

theorem IsOpen.token (h : p.IsOpen) {w : Nat} {s : Semaphore} (hs : p.pool.slots[w]? = some s) :
    s.closed = false := by
  refine h _ ?_
  have hmem := List.mem_of_getElem? hs
  simp only [locks, List.mem_cons, List.mem_append, List.mem_map]
  exact .inr (.inr (.inr (.inl ⟨s, hmem, rfl⟩)))

theorem IsOpen.slot (h : p.IsOpen) (w : Nat) : p.isSlotClosed w = false := by
  cases hs : p.slots[w]? with
  | none => rw [isSlotClosed, hs]; rfl
  | some s =>
      have hmem := List.mem_of_getElem? hs
      rw [isSlotClosed, hs]
      refine h _ ?_
      simp only [locks, List.mem_cons, List.mem_append, List.mem_map]
      exact .inr (.inr (.inr (.inr ⟨s, hmem, rfl⟩)))

/-- The locks do not change with a slot that keeps its own. -/
theorem locks_setSlot {w : Nat} {s s' : Slot} (hs : p.slots[w]? = some s)
    (hclosed : s'.closed = s.closed) : (p.setSlot w s').locks = p.locks := by
  simp only [locks, setSlot, map_set_of_eq (g := (·.closed)) hs hclosed]

end Premises

/-- A search opens and closes nothing. -/
theorem Pool.Claims.locks_eq {p p' : Pool} {pos : Pool.Claiming}
    {progress : Progress Pool.Claiming (Except Fault Nat)} (h : p.Claims pos progress p') :
    p'.available.closed = p.available.closed ∧
      p'.slots.map (·.closed) = p.slots.map (·.closed) := by
  cases h with
  | waits hacq => exact ⟨Semaphore.acquire?_closed_eq hacq, rfl⟩
  | admitted hacq => exact ⟨Semaphore.acquire?_closed_eq hacq, rfl⟩
  | refused hacq => exact ⟨Semaphore.acquire?_closed_eq hacq, rfl⟩
  | missed hs htry => exact ⟨rfl, rfl⟩
  | took hs htry => exact ⟨rfl, map_set_of_eq hs (Semaphore.tryAcquire_closed_eq htry)⟩
  | lastWaits hs hacq => exact ⟨rfl, map_set_of_eq hs (Semaphore.acquire?_closed_eq hacq)⟩
  | lastTook hs hacq => exact ⟨rfl, map_set_of_eq hs (Semaphore.acquire?_closed_eq hacq)⟩
  | lastRefused hs hacq => exact ⟨rfl, map_set_of_eq hs (Semaphore.acquire?_closed_eq hacq)⟩

/-- An offer opens and closes nothing. -/
theorem Pool.Offers.locks_eq {p p' : Pool} {worker : Nat} {pos : Pool.Advertising}
    {outcome : Progress Pool.Advertising (Except Fault Unit)} (h : p.Offers worker pos outcome p') :
    p'.available.closed = p.available.closed ∧
      p'.slots.map (·.closed) = p.slots.map (·.closed) := by
  cases h with
  | putDown hs hroom => exact ⟨rfl, map_set_of_eq hs rfl⟩
  | _ => exact ⟨rfl, rfl⟩

/-- A step of a customer opens and closes nothing. -/
theorem Visiting.Steps.locks_eq {c : Customer} {p p' : Premises} {v v' : Visiting}
    (h : v.Steps c p v' p') : p'.locks = p.locks := by
  have hgate := h.uses_gate.closed_eq
  cases h with
  | claims hclaim =>
      obtain ⟨havailable, htokens⟩ := hclaim.locks_eq
      simp only [Premises.locks, havailable, htokens]
  | binds hs hphase => exact Premises.locks_setSlot hs rfl
  | proceeds hs hphase => exact Premises.locks_setSlot hs rfl
  | enters henter => exact congrArg (· :: _) hgate
  | leaves => exact congrArg (· :: _) hgate
  | _ => rfl

/-- A step of a worker opens and closes nothing. -/
theorem Working.Steps.locks_eq {id : Nat} {p p' : Premises} {offered : Bool} {k k' : Working}
    (h : k.Steps id p offered k' p') : p'.locks = p.locks := by
  cases h with
  | opens hs hphase => exact Premises.locks_setSlot hs rfl
  | acknowledges hs hphase => exact Premises.locks_setSlot hs rfl
  | completes hs hphase => exact Premises.locks_setSlot hs rfl
  | settles hs => exact Premises.locks_setSlot hs rfl
  | advertises hoffer =>
      obtain ⟨havailable, htokens⟩ := hoffer.locks_eq
      simp only [Premises.locks, havailable, htokens]
  | weighs hacq => simp only [Premises.locks, Scale.acquire?_closed_eq hacq]
  | drops => simp only [Premises.locks, Scale.drop_closed]
  | unwinds => simp only [Premises.locks, Scale.drop_closed]
  | _ => rfl

/-! ## Closes on the floor -/

/-- A step of a close does not lead back to its start. -/
theorem Closing.Steps.ne_gate {p p' : Premises} {k k' : Closing} (h : k.Steps p k' p') :
    k' ≠ .gate := by
  cases h <;> simp

namespace Floor

/-- Somebody has begun to close the office. -/
def Begun (f : Floor) : Prop :=
  ∃ (i : Nat) (k : Closing), f.people[i]? = some (.closer k) ∧ k ≠ .gate

/-- **`f.Guarded`** — the office is open until a close has begun. -/
def Guarded (f : Floor) : Prop := f.Begun ∨ f.premises.IsOpen

/-- Whoever closes the office stays where it is when somebody else moves on. -/
theorem closer_set {people : List Person} {i j : Nat} {k : Closing} {p p' : Person}
    (hi : people[i]? = some (.closer k)) (hj : people[j]? = some p) (hp : p.badge ≠ .closer) :
    (people.set j p')[i]? = some (.closer k) := by
  rw [List.getElem?_set_ne]
  · exact hi
  · rintro rfl
    obtain rfl := Option.some.inj (hj.symm.trans hi)
    exact hp rfl

/-- Once a close has begun, it has begun. -/
theorem Begun.move {f f' : Floor} {m : Move} (h : f.Begun) (hmove : f.move? m = some f') :
    f'.Begun := by
  obtain ⟨i, k, hi, hk⟩ := h
  cases m with
  | step j =>
      cases steps_of_step? hmove with
      | customer hj hv => exact ⟨i, k, closer_set hi hj (by simp [Person.badge]), hk⟩
      | worker hj hw => exact ⟨i, k, closer_set hi hj (by simp [Person.badge]), hk⟩
      | closer hj hc =>
          by_cases hij : j = i
          · subst hij
            exact ⟨j, _, List.getElem?_set_self (List.getElem?_eq_some_iff.1 hi).1, hc.ne_gate⟩
          · exact ⟨i, k, (List.getElem?_set_ne hij).trans hi, hk⟩
  | exchange a b =>
      obtain ⟨w, people', -, hex, rfl⟩ := exchanges_of_exchange? hmove
      obtain ⟨p, p', q, q', ha, hb, hab, hp, hq, rfl⟩ := hex.swaps
      have hb' : (f.people.set a p')[b]? = some q := by
        rw [List.getElem?_set_ne hab]
        exact hb
      exact ⟨i, k, closer_set (closer_set hi ha hp.badge_ne_closer) hb' hq.badge_ne_closer, hk⟩
  | unwind j =>
      obtain ⟨p, p', hj, hunwind, rfl⟩ := unwind?_eq_some hmove
      refine ⟨i, k, closer_set hi hj fun hcloser => ?_, hk⟩
      cases p with
      | closer k' => cases hunwind
      | customer c v => cases hcloser
      | worker w k' => cases hcloser
  | fire =>
      obtain rfl := Option.some.inj hmove
      exact ⟨i, k, hi, hk⟩
  | join p =>
      obtain rfl := Option.some.inj hmove
      exact ⟨i, k, (List.getElem?_append_left (List.getElem?_eq_some_iff.1 hi).1).trans hi, hk⟩

/-- **Every move** keeps the office open, or belongs to a close. -/
theorem Guarded.move {f f' : Floor} {m : Move} (h : f.Guarded) (hmove : f.move? m = some f') :
    f'.Guarded := by
  rcases h with hbegun | hopen
  · exact .inl (hbegun.move hmove)
  cases m with
  | step i =>
      cases steps_of_step? hmove with
      | customer hi hv =>
          exact .inr fun b hb => hopen b (by rwa [hv.locks_eq] at hb)
      | worker hi hk =>
          exact .inr fun b hb => hopen b (by rwa [hk.locks_eq] at hb)
      | closer hi hk =>
          exact .inl ⟨i, _, List.getElem?_set_self (List.getElem?_eq_some_iff.1 hi).1, hk.ne_gate⟩
  | exchange i j =>
      obtain ⟨w, people', -, hex, rfl⟩ := exchanges_of_exchange? hmove
      exact .inr hopen
  | unwind i =>
      obtain ⟨p, p', hi, hunwind, rfl⟩ := unwind?_eq_some hmove
      exact .inr hopen
  | fire =>
      obtain rfl := Option.some.inj hmove
      exact .inr hopen
  | join p =>
      obtain rfl := Option.some.inj hmove
      exact .inr hopen

/-- An office that has just opened is open. -/
theorem guarded_opening (capacity workers minute clock : Nat) :
    (opening (.furnish capacity workers minute) clock).Guarded := by
  refine .inr fun b hb => ?_
  simp only [Premises.locks, opening, Premises.opening, Office.furnish, Gate.ofCapacity,
    Semaphore.ofPermits, Pool.ofWorkers, Scale.fresh, Semaphore.bounded, List.map_replicate,
    List.map_map, List.mem_cons, List.mem_append, List.mem_replicate, List.mem_map] at hb
  rcases hb with rfl | rfl | rfl | ⟨-, rfl⟩ | ⟨w, -, rfl⟩ <;> rfl

/-- Where nobody closes, everything is open. -/
theorem Guarded.isOpen {f : Floor} (h : f.Guarded) (hno : .closer ∉ f.badges) :
    f.premises.IsOpen := by
  rcases h with ⟨i, k, hi, -⟩ | hopen
  · exact absurd (List.mem_of_getElem? (badge_of_getElem? hi)) hno
  · exact hopen

end Floor

end Postal
